import EntityGen.Proofs.Resolve.Classification
import EntityGen.Proofs.Resolve.Partition

/-! The ids of accepted specs. No name of a spec stands at a place that resolution descends to.
Resolution does not look into tuples, references and the like or behind a path that goes on, so
that a name can stand there. -/
namespace EntityGen

mutual

/-- The names that stand alone for a type, in reading order and at any depth. -/
def Ty.names : Ty → List Ident
  | .path leading segments => (Path.bare? ⟨leading, segments⟩).toList ++ Segment.namesIn segments
  | .paren inner => inner.names
  | .group inner => inner.names
  | .inferred => []
  | .implTrait pieces => Piece.namesIn pieces
  | .invocation _ => []
  | .composite pieces => Piece.namesIn pieces

def Segment.names : Segment → List Ident
  | .mk _ args => args.names

def Segment.namesIn : List Segment → List Ident
  | [] => []
  | segment :: rest => segment.names ++ Segment.namesIn rest

def Args.names : Args → List Ident
  | .none => []
  | .angle _ args _ => Arg.namesIn args

def Arg.names : Arg → List Ident
  | .lifetime _ => []
  | .ty ty => ty.names
  | .other pieces => Piece.namesIn pieces

def Arg.namesIn : List Arg → List Ident
  | [] => []
  | arg :: rest => arg.names ++ Arg.namesIn rest

def Piece.names : Piece → List Ident
  | .token _ => []
  | .ty ty => ty.names

def Piece.namesIn : List Piece → List Ident
  | [] => []
  | piece :: rest => piece.names ++ Piece.namesIn rest

end

mutual

/-- Those of the names that resolution does not descend to: in a form that is kept as a whole, in
the arguments of a segment that is not the last one, and in arguments that are no types. -/
def Ty.unseen : Ty → List Ident
  | .path _ segments => Segment.unseenIn segments
  | .paren inner => inner.unseen
  | .group inner => inner.unseen
  | .inferred => []
  | .implTrait pieces => Piece.namesIn pieces
  | .invocation _ => []
  | .composite pieces => Piece.namesIn pieces

def Segment.unseen : Segment → List Ident
  | .mk _ args => args.unseen

def Segment.unseenIn : List Segment → List Ident
  | [] => []
  | [segment] => segment.unseen
  | segment :: rest => segment.names ++ Segment.unseenIn rest

def Args.unseen : Args → List Ident
  | .none => []
  | .angle _ args _ => Arg.unseenIn args

def Arg.unseen : Arg → List Ident
  | .lifetime _ => []
  | .ty ty => ty.unseen
  | .other pieces => Piece.namesIn pieces

def Arg.unseenIn : List Arg → List Ident
  | [] => []
  | arg :: rest => arg.unseen ++ Arg.unseenIn rest

end

namespace Ty

def named (name : Ident) : Ty := .path false [.bare name]

variable {name : Ident}

theorem Place.trans {ty inner found : Ty} (outer : ty.Place inner) (place : inner.Place found) :
    ty.Place found := by
  induction outer with
  | here ty => exact place
  | paren _ ih => exact .paren (ih place)
  | group _ ih => exact .group (ih place)
  | argument member _ ih => exact .argument member (ih place)

theorem place_core : (ty : Ty) → ty.Place ty.core
  | .paren inner => .paren (place_core inner)
  | .group inner => .group (place_core inner)
  | .path _ _ | .inferred | .implTrait _ | .invocation _ | .composite _ => .here _

theorem place_paren_iff {inner : Ty} : (Ty.paren inner).Place (named name) ↔
    inner.Place (named name) := by
  refine ⟨fun place => ?_, .paren⟩
  generalize same : named name = found at place
  cases place with
  | here => cases same
  | paren place => exact place

theorem place_group_iff {inner : Ty} : (Ty.group inner).Place (named name) ↔
    inner.Place (named name) := by
  refine ⟨fun place => ?_, .group⟩
  generalize same : named name = found at place
  cases place with
  | here => cases same
  | group place => exact place

theorem place_path_iff {leading : Bool} {segments : List Segment} :
    (Ty.path leading segments).Place (named name) ↔
      Path.bare? ⟨leading, segments⟩ = some name ∨
        ∃ arg ∈ Path.typeArgs ⟨leading, segments⟩, arg.Place (named name) := by
  rw [Path.bare?_eq_some_iff]
  constructor
  · intro place
    generalize same : named name = found at place
    generalize outer : Ty.path leading segments = ty at place
    cases place with
    | here =>
      obtain ⟨rfl, rfl⟩ := Ty.path.inj (outer.trans same.symm)
      exact .inl rfl
    | @argument path arg _ member place =>
      obtain rfl : Path.mk leading segments = path := Path.ty_injective outer
      exact .inr ⟨arg, member, place⟩
    | paren | group => cases outer
  · rintro (same | ⟨arg, member, place⟩)
    · obtain ⟨rfl, rfl⟩ := Path.mk.inj same
      exact .here _
    · exact Place.argument (show arg ∈ Path.typeArgs ⟨leading, segments⟩ from member) place

end Ty

/-- The type arguments of the last segment, with segments before it. -/
theorem typeArgs_cons_cons (leading : Bool) (first next : Segment) (rest : List Segment) :
    Path.typeArgs ⟨leading, first :: next :: rest⟩ = Path.typeArgs ⟨leading, next :: rest⟩ := by
  simp [Path.typeArgs]

section
variable {name : Ident}

mutual

/-- A name in a type stands at a place or is not seen. -/
theorem Ty.mem_names_iff : (ty : Ty) →
    (name ∈ ty.names ↔ ty.Place (.named name) ∨ name ∈ ty.unseen)
  | .path leading segments => by
    rw [Ty.names, Ty.unseen, List.mem_append, Option.mem_toList,
      Segment.mem_namesIn_iff leading segments, Ty.place_path_iff, or_assoc]
  | .paren inner => by
    rw [Ty.names, Ty.unseen, Ty.place_paren_iff]
    exact Ty.mem_names_iff inner
  | .group inner => by
    rw [Ty.names, Ty.unseen, Ty.place_group_iff]
    exact Ty.mem_names_iff inner
  | .inferred | .invocation _ => by
    simp only [Ty.names, Ty.unseen, List.not_mem_nil, or_false, false_iff]
    nofun
  | .implTrait pieces | .composite pieces => (or_iff_right nofun).symm

theorem Segment.mem_namesIn_iff (leading : Bool) : (segments : List Segment) →
    (name ∈ Segment.namesIn segments ↔
      (∃ arg ∈ Path.typeArgs ⟨leading, segments⟩, arg.Place (.named name)) ∨
        name ∈ Segment.unseenIn segments)
  | [] => by simp [Segment.namesIn, Segment.unseenIn, Path.typeArgs]
  | [.mk _ args] => by
    rw [Segment.namesIn, Segment.namesIn, List.append_nil]
    exact Args.mem_names_iff args
  | first :: next :: rest => by
    rw [Segment.namesIn, Segment.unseenIn, List.mem_append, List.mem_append, typeArgs_cons_cons,
      Segment.mem_namesIn_iff leading (next :: rest)]
    · exact or_left_comm
    · nofun

theorem Args.mem_names_iff : (args : Args) → (name ∈ args.names ↔
    (∃ arg ∈ args.types, arg.Place (.named name)) ∨ name ∈ args.unseen)
  | .none => by simp [Args.names, Args.types, Args.unseen]
  | .angle _ args _ => Arg.mem_namesIn_iff args

theorem Arg.mem_namesIn_iff : (args : List Arg) → (name ∈ Arg.namesIn args ↔
    (∃ arg ∈ args.filterMap Arg.type?, arg.Place (.named name)) ∨ name ∈ Arg.unseenIn args)
  | [] => by simp [Arg.namesIn, Arg.unseenIn]
  | .lifetime _ :: rest => Arg.mem_namesIn_iff rest
  | .ty inner :: rest => by
    rw [Arg.namesIn, Arg.unseenIn, List.mem_append, List.mem_append, Arg.names, Arg.unseen,
      Ty.mem_names_iff inner, Arg.mem_namesIn_iff rest, List.filterMap_cons]
    simp only [Arg.type?, List.mem_cons, or_and_right, exists_or, exists_eq_left]
    exact or_or_or_comm
  | .other pieces :: rest => by
    rw [Arg.namesIn, Arg.unseenIn, List.mem_append, List.mem_append, Arg.names, Arg.unseen,
      Arg.mem_namesIn_iff rest]
    exact or_left_comm

end

end

namespace ResolvedType

mutual

theorem mentionsEntity_iff : (type : ResolvedType) →
    (type.mentionsEntity = true ↔ ∃ target, type.Node (.entity target))
  | leaf _ => by
    simp only [mentionsEntity, Bool.false_eq_true, false_iff, not_exists]
    nofun
  | entity owner => iff_of_true rfl ⟨owner, .here _⟩
  | list kind elem => by
    rw [mentionsEntity, mentionsEntity_iff elem]
    exact exists_congr fun target => ⟨.elem, fun | .elem inside => inside⟩
  | map kind key value => by
    rw [mentionsEntity, Bool.or_eq_true, mentionsEntity_iff key, mentionsEntity_iff value, ← exists_or]
    refine exists_congr fun target => ⟨fun inside => inside.elim .key .value, ?_⟩
    rintro (_ | _ | inside | inside)
    · exact .inl inside
    · exact .inr inside
  | other raw args => by
    rw [mentionsEntity, anyMentions_iff args]
    constructor
    · rintro ⟨arg, member, target, inside⟩
      exact ⟨target, .argument member inside⟩
    · rintro ⟨target, inside⟩
      cases inside with
      | argument member inside => exact ⟨_, member, target, inside⟩

theorem anyMentions_iff : (types : List ResolvedType) →
    (anyMentions types = true ↔ ∃ type ∈ types, ∃ target, type.Node (.entity target))
  | [] => by simp [anyMentions]
  | first :: rest => by
    rw [anyMentions, Bool.or_eq_true, mentionsEntity_iff first, anyMentions_iff rest,
      List.exists_mem_cons_iff]

end

end ResolvedType

/-- A type mentions an entity where a name of the table stands at a place. -/
theorem EntityTable.mentionsEntity_resolve_iff {table : EntityTable} {ty : Ty} :
    (table.resolve ty).mentionsEntity = true ↔
      ∃ name, ty.Place (.named name) ∧ table.contains name.text := by
  rw [ResolvedType.mentionsEntity_iff]
  constructor
  · rintro ⟨target, inside⟩
    obtain ⟨found, place, type⟩ := node_resolve_iff.mp inside
    cases resolve_eq_iff.mp type with
    | @entity name _ named known =>
      have alone : found.Place (.named name) := by
        rw [Ty.named, ← named]
        exact found.place_core
      exact ⟨name, place.trans alone, Option.isSome_of_eq_some known⟩
  · rintro ⟨name, place, known⟩
    obtain ⟨target, known⟩ := Option.isSome_iff_exists.mp known
    exact ⟨target, node_resolve_iff.mpr ⟨_, place, resolve_of_named known⟩⟩

def Spec.idError (spec : Spec) : SpecError :=
  ⟨spec.name, .invalid (.entityId spec.idField.name), spec.pos⟩

namespace Resolution

variable {specs : List Spec} {spec : Spec} {known : EntityTable} {sorted : Sorted}
  {error : SpecError}

/-- The name of a spec stands at a place in the id of another one. -/
def IdRefers (specs : List Spec) (spec : Spec) : Prop :=
  ∃ name, spec.idField.ty.Place (.named name) ∧ ∃ other ∈ specs, other.typeName.text = name.text

theorem mentionsEntity_candidates_iff :
    ((candidates specs).resolve spec.idField.ty).mentionsEntity = true ↔ IdRefers specs spec := by
  simp only [EntityTable.mentionsEntity_resolve_iff, contains_candidates_iff, IdRefers]

theorem mem_errors_iff : error ∈ (ofSpecs specs).errors ↔ ∃ (i : Nat) (spec : Spec),
    specs[i]? = some spec ∧ verdict (candidates specs) (before specs i) spec = some error := by
  have errors : (ofSpecs specs).errors = (verdicts specs).filterMap id := by
    have all := errors_before specs specs.length (Nat.le_refl _)
    rwa [before_length, List.take_of_length_le (by simp [verdicts])] at all
  rw [errors, List.mem_filterMap]
  constructor
  · rintro ⟨_, member, rfl⟩
    obtain ⟨i, here⟩ := List.mem_iff_getElem?.mp member
    have bound : i < specs.length := by
      simpa [verdicts] using (List.getElem?_eq_some_iff.mp here).1
    have entry : specs[i]? = some specs[i] := List.getElem?_eq_getElem bound
    rw [getElem?_verdicts entry, Option.some_inj] at here
    exact ⟨i, specs[i], entry, here⟩
  · rintro ⟨i, spec, entry, judged⟩
    refine ⟨_, List.mem_of_getElem? (getElem?_verdicts entry), judged⟩

theorem verdict_eq_idError (refers : (known.resolve spec.idField.ty).mentionsEntity = true) :
    verdict known sorted spec = some spec.idError := by
  simp [verdict, accept, refers, Spec.idError]

structure IdsPlain (specs : List Spec) (result : Resolution) : Prop where
  /-- No name of a spec, whether it is accepted or not, stands at a place in the id of an entity. -/
  placed : ∀ entity ∈ result.entities, ¬IdRefers specs entity.spec
  /-- The specs where one stands have errors that say so, and no others do. -/
  refused : ∀ error field, error.fault = .invalid (.entityId field) →
    (error ∈ result.errors ↔ ∃ spec ∈ specs, IdRefers specs spec ∧ error = spec.idError)
  /-- An entity that the id of an entity names is named where resolution does not look. -/
  unseen : ∀ entity ∈ result.entities, ∀ other ∈ result.entities, ∀ name,
    other.name.text = name.text →
      (name ∈ entity.spec.idField.ty.names ↔ name ∈ entity.spec.idField.ty.unseen)

/-- The ids of entities are plain wherever resolution looks. -/
theorem ids_plain_where_seen (specs : List Spec) : IdsPlain specs (ofSpecs specs) := by
  have placed : ∀ entity ∈ (ofSpecs specs).entities, ¬IdRefers specs entity.spec := by
    intro entity member
    obtain ⟨spec, accepted, rfl⟩ := mem_entities_iff.mp member
    rw [← mentionsEntity_candidates_iff, Bool.not_eq_true]
    exact (faithful_sort specs).plainIds spec accepted
  refine ⟨placed, ?_, ?_⟩
  · intro error field fault
    rw [mem_errors_iff]
    constructor
    · rintro ⟨i, spec, entry, judged⟩
      refine ⟨spec, List.mem_of_getElem? entry, ?_⟩
      by_cases refers : ((candidates specs).resolve spec.idField.ty).mentionsEntity = true
      · refine ⟨mentionsEntity_candidates_iff.mp refers, ?_⟩
        exact Option.some.inj (judged.symm.trans (verdict_eq_idError refers))
      · -- Any other error is about a name that is taken.
        obtain ⟨-, -, taken⟩ := verdict_eq_some (faithful_before specs i) judged
        rw [if_neg refers] at taken
        obtain ⟨_, -, -, taken⟩ := taken
        rw [fault] at taken
        cases taken
    · rintro ⟨spec, member, refers, rfl⟩
      obtain ⟨i, entry⟩ := List.mem_iff_getElem?.mp member
      exact ⟨i, spec, entry, verdict_eq_idError (mentionsEntity_candidates_iff.mpr refers)⟩
  · intro entity member other owner name same
    rw [Ty.mem_names_iff]
    refine or_iff_right fun place => placed entity member ⟨name, place, other.spec, ?_, same⟩
    obtain ⟨spec, accepted, rfl⟩ := mem_entities_iff.mp owner
    exact (faithful_sort specs).members spec accepted

end Resolution

/-! A user that is known by a number, and a pair that is known by a user and a number. -/
namespace Pairs

def pair : Ty :=
  .composite [.token (.opening .round), .ty Users.user, .token (.punct ','), .ty Users.number,
    .token (.closing .round)]

def pairs : List Spec :=
  [Users.declared [] Users.number [], { Users.declared [] pair [] with
    ident := ⟨"PairSpec", false⟩, name := "pair", typeName := ⟨"Pair", false⟩ }]

/-- Both are accepted, though the id of the pair has a user in it. -/
theorem pair_known_by_user : ∃ entity ∈ (Resolution.ofSpecs pairs).entities,
    ∃ other ∈ (Resolution.ofSpecs pairs).entities, other.name ∈ entity.spec.idField.ty.names := by
  decide

end Pairs
end EntityGen
