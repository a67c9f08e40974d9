import EntityGen.Proofs.Resolve.Classification
import Mathlib.Data.List.Forall2

/-! Resolution by more names. A name is looked up before a container is recognized, but only a name
without arguments is, and which containers and other types with arguments stand in a type is decided
by its paths alone. So each of them stays in its place, an entity is one still, and a leaf becomes one
if it is a new name. -/
namespace EntityGen

namespace EntityTable

variable {table larger : EntityTable}

/-- The other table has all names of the table, for entries that may differ. -/
def Within (table larger : EntityTable) : Prop :=
  ∀ name, table.contains name → larger.contains name

/-- What a form that is resolved by the names of the first table becomes by those of the second. -/
inductive Grows (table larger : EntityTable) : ResolvedType → ResolvedType → Prop
  /-- A leaf stays if it is not a name of the second table. -/
  | leaf {ty : Ty} : (∀ name, ty = .path false [.bare name] → larger.lookup name.text = none) →
      Grows table larger (.leaf ty) (.leaf ty)
  /-- A leaf that is a name of the second table alone becomes an entity. -/
  | named {name : Ident} {target : EntityType} : table.lookup name.text = none →
      larger.lookup name.text = some target →
      Grows table larger (.leaf (.path false [.bare name])) (.entity target)
  /-- An entity becomes what the second table has for the same name. -/
  | entity {name : Ident} {source target : EntityType} : table.lookup name.text = some source →
      larger.lookup name.text = some target → Grows table larger (.entity source) (.entity target)
  | list {kind : ListKind} {elem elem' : ResolvedType} : Grows table larger elem elem' →
      Grows table larger (.list kind elem) (.list kind elem')
  | map {kind : MapKind} {key key' value value' : ResolvedType} : Grows table larger key key' →
      Grows table larger value value' →
      Grows table larger (.map kind key value) (.map kind key' value')
  | other {raw : Path} {args args' : List ResolvedType} :
      List.Forall₂ (Grows table larger) args args' →
      Grows table larger (.other raw args) (.other raw args')

theorem Within.exists_lookup (within : table.Within larger) {name : String} {source : EntityType}
    (found : table.lookup name = some source) : ∃ target, larger.lookup name = some target :=
  Option.isSome_iff_exists.mp (within name (Option.isSome_of_eq_some found))

/-- A node grows if its arguments do. -/
theorem grows_path (within : table.Within larger) (path : Path)
    (args : ∀ arg ∈ path.typeArgs, table.Grows larger (table.resolve arg) (larger.resolve arg)) :
    table.Grows larger (table.resolve path.ty) (larger.resolve path.ty) := by
  generalize type : table.resolve path.ty = node
  -- Only the forms of entities and leaves tell of a table. All others are forms for both tables.
  cases resolve_eq_iff.mp type with
  | entity named found =>
    obtain ⟨target, known⟩ := within.exists_lookup found
    rw [resolve_of_form (.entity named known)]
    exact .entity found known
  | list named denotes single =>
    obtain rfl := Path.ty_injective named
    rw [resolve_of_form (.list named denotes single)]
    apply Grows.list
    apply args
    simp [single]
  | map named denotes pair =>
    obtain rfl := Path.ty_injective named
    rw [resolve_of_form (.map named denotes pair)]
    apply Grows.map
    · apply args
      simp [pair]
    · apply args
      simp [pair]
  | other named nonempty unfit =>
    obtain rfl := Path.ty_injective named
    rw [resolve_of_form (.other named nonempty unfit)]
    apply Grows.other
    rw [List.forall₂_map_left_iff, List.forall₂_map_right_iff, List.forall₂_same]
    exact args
  | leaf free plain =>
    by_cases taken : ∃ name target, path.ty = .path false [.bare name] ∧
        larger.lookup name.text = some target
    · obtain ⟨name, target, bare, known⟩ := taken
      have form : larger.Form path.ty (.entity target) := .entity bare known
      rw [resolve_of_form form, show path.ty.core = .path false [.bare name] from bare]
      exact .named (free name bare) known
    · have unknown (name : Ident) (bare : path.ty = .path false [.bare name]) :
          larger.lookup name.text = none := by
        apply Option.eq_none_iff_forall_ne_some.mpr
        intro target known
        exact taken ⟨name, target, bare, known⟩
      have form : larger.Form path.ty (.leaf path.ty.core) := .leaf unknown plain
      rw [resolve_of_form form]
      exact .leaf unknown

/-- The resolved form of a type grows with the table. -/
theorem grows_resolve (within : table.Within larger) : (ty : Ty) →
    table.Grows larger (table.resolve ty) (larger.resolve ty)
  | .paren inner => grows_resolve within inner
  | .group inner => grows_resolve within inner
  | .inferred | .implTrait _ | .invocation _ | .composite _ => .leaf nofun
  | .path leading segments => by
    apply grows_path within ⟨leading, segments⟩
    intro arg member
    exact grows_resolve within arg
termination_by ty => sizeOf ty
decreasing_by
  · simp only [Ty.paren.sizeOf_spec]
    omega
  · simp only [Ty.group.sizeOf_spec]
    omega
  · exact Ty.sizeOf_lt_of_mem_typeArgs member

theorem holdsEntities_of_grows : (type : ResolvedType) → {grown : ResolvedType} →
    table.Grows larger type grown → type.holdsEntities = true → grown.holdsEntities = true
  | .leaf _, _, _, holds | .other _ _, _, _, holds => nomatch holds
  | .entity _, _, grows, _ => by
    cases grows
    rfl
  | .list _ elem, _, grows, holds => by
    cases grows with
    | list grows =>
      rw [ResolvedType.holdsEntities] at holds ⊢
      exact holdsEntities_of_grows elem grows holds
  | .map _ key value, _, grows, holds => by
    cases grows with
    | map keys values =>
      rw [ResolvedType.holdsEntities, Bool.or_eq_true] at holds ⊢
      exact holds.imp (holdsEntities_of_grows key keys) (holdsEntities_of_grows value values)

mutual

theorem mentionsEntity_of_grows : (type : ResolvedType) → {grown : ResolvedType} →
    table.Grows larger type grown → type.mentionsEntity = true → grown.mentionsEntity = true
  | .leaf _, _, _, mentions => nomatch mentions
  | .entity _, _, grows, _ => by
    cases grows
    rfl
  | .list _ elem, _, grows, mentions => by
    cases grows with
    | list grows =>
      rw [ResolvedType.mentionsEntity] at mentions ⊢
      exact mentionsEntity_of_grows elem grows mentions
  | .map _ key value, _, grows, mentions => by
    cases grows with
    | map keys values =>
      rw [ResolvedType.mentionsEntity, Bool.or_eq_true] at mentions ⊢
      exact mentions.imp (mentionsEntity_of_grows key keys) (mentionsEntity_of_grows value values)
  | .other _ args, _, grows, mentions => by
    cases grows with
    | other each =>
      rw [ResolvedType.mentionsEntity] at mentions ⊢
      exact anyMentions_of_grows args each mentions

theorem anyMentions_of_grows : (types : List ResolvedType) → {grown : List ResolvedType} →
    List.Forall₂ (table.Grows larger) types grown → ResolvedType.anyMentions types = true →
    ResolvedType.anyMentions grown = true
  | [], _, _, mentions => nomatch mentions
  | first :: rest, _, .cons here later, mentions => by
    rw [ResolvedType.anyMentions, Bool.or_eq_true] at mentions ⊢
    exact mentions.imp (mentionsEntity_of_grows first here) (anyMentions_of_grows rest later)

end

/-- A type that mentions an entity still does so if there are more names. -/
theorem mentionsEntity_mono (within : table.Within larger) (ty : Ty)
    (mentions : (table.resolve ty).mentionsEntity = true) :
    (larger.resolve ty).mentionsEntity = true :=
  mentionsEntity_of_grows _ (grows_resolve within ty) mentions

end EntityTable
end EntityGen
