import EntityGen.Proofs.Resolve.Tables

/-! How types are classified. A type is descended into through parentheses, groups and the type
arguments of its last segment; what stands at a place that is reached in this way becomes one node
of the resolved form, and its own form decides which. -/
namespace EntityGen

def Arg.type? : Arg → Option Ty
  | .ty inner => some inner
  | .lifetime _ | .other _ => none

def Args.types : Args → List Ty
  | .none => []
  | .angle _ args _ => args.filterMap Arg.type?

def Path.typeArgs (path : Path) : List Ty :=
  match path.segments.getLast? with
  | some last => last.args.types
  | none => []

/-- The path names the container: on its own, or from the root of a standard library on. -/
def Path.Denotes (path : Path) (container : Container) : Prop :=
  ∃ before last, path.segments = before ++ [last] ∧ last.name = ⟨container.name, false⟩ ∧
    ((before = [] ∧ path.leading = false) ∨
      ∃ first rest root, before = first :: rest ∧ root ∈ Container.roots ∧
        first.name = ⟨root, false⟩)

namespace Ty

/-- The type without the parentheses and groups around it. -/
def core : Ty → Ty
  | .paren inner => inner.core
  | .group inner => inner.core
  | ty => ty

/-- A type stands in another one where resolution descends to it. -/
inductive Place : Ty → Ty → Prop
  | here (ty : Ty) : Place ty ty
  | paren {inner found : Ty} : Place inner found → Place (.paren inner) found
  | group {inner found : Ty} : Place inner found → Place (.group inner) found
  | argument {path : Path} {arg found : Ty} :
      arg ∈ path.typeArgs → Place arg found → Place path.ty found

/-- The second type is the first one with parentheses or a group around what stands at a place. -/
inductive Wraps : Ty → Ty → Prop
  | paren (ty : Ty) : Wraps ty (.paren ty)
  | group (ty : Ty) : Wraps ty (.group ty)
  | inParen {a b : Ty} : Wraps a b → Wraps (.paren a) (.paren b)
  | inGroup {a b : Ty} : Wraps a b → Wraps (.group a) (.group b)
  | argument {a b : Ty} (leading : Bool) (before : List Segment) (name : Ident) (turbofish : Bool)
      (left right : List Arg) (trailing : Bool) : Wraps a b →
      Wraps
        (.path leading (before ++ [⟨name, .angle turbofish (left ++ .ty a :: right) trailing⟩]))
        (.path leading (before ++ [⟨name, .angle turbofish (left ++ .ty b :: right) trailing⟩]))

theorem sizeOf_lt_of_mem_types {args : Args} {arg : Ty} (member : arg ∈ args.types) :
    sizeOf arg < sizeOf args := by
  cases args with
  | none => cases member
  | angle turbofish args trailing =>
    obtain ⟨part, inside, same⟩ := List.mem_filterMap.mp member
    cases part with
    | ty inner =>
      obtain rfl := Option.some.inj same
      have smaller := List.sizeOf_lt_of_mem inside
      simp only [Arg.ty.sizeOf_spec] at smaller
      simp only [Args.angle.sizeOf_spec]
      omega
    | lifetime | other => cases same

theorem sizeOf_lt_of_mem_typeArgs {path : Path} {arg : Ty} (member : arg ∈ path.typeArgs) :
    sizeOf arg < sizeOf path.ty := by
  obtain ⟨leading, segments⟩ := path
  rw [Path.typeArgs] at member
  cases last : segments.getLast? with
  | none =>
    rw [last] at member
    cases member
  | some segment =>
    rw [last] at member
    have smaller := sizeOf_lt_of_mem_types member
    have inside := List.sizeOf_lt_of_mem (List.mem_of_getLast? last)
    obtain ⟨name, args⟩ := segment
    simp only [Segment.mk.sizeOf_spec] at inside
    simp only [Path.ty, Ty.path.sizeOf_spec]
    simp only [Segment.args] at smaller
    omega

end Ty

namespace ResolvedType

/-- The parts of a resolved form, itself among them. -/
inductive Node : ResolvedType → ResolvedType → Prop
  | here (type : ResolvedType) : Node type type
  | elem {kind : ListKind} {elem found : ResolvedType} : Node elem found → Node (.list kind elem) found
  | key {kind : MapKind} {key value found : ResolvedType} :
      Node key found → Node (.map kind key value) found
  | value {kind : MapKind} {key value found : ResolvedType} :
      Node value found → Node (.map kind key value) found
  | argument {raw : Path} {args : List ResolvedType} {arg found : ResolvedType} :
      arg ∈ args → Node arg found → Node (.other raw args) found

/-- An entity is reached through lists and maps only. -/
inductive Walks : ResolvedType → EntityType → Prop
  | entity (target : EntityType) : Walks (.entity target) target
  | elem {kind : ListKind} {elem : ResolvedType} {target : EntityType} :
      Walks elem target → Walks (.list kind elem) target
  | key {kind : MapKind} {key value : ResolvedType} {target : EntityType} :
      Walks key target → Walks (.map kind key value) target
  | value {kind : MapKind} {key value : ResolvedType} {target : EntityType} :
      Walks value target → Walks (.map kind key value) target

theorem walks_iff {target : EntityType} : (type : ResolvedType) →
    (type.Walks target ↔ target ∈ type.targets)
  | leaf _ | other _ _ => by simp only [targets, List.not_mem_nil, iff_false]; nofun
  | entity owner => by
    rw [targets, List.mem_singleton]
    exact ⟨fun | .entity _ => rfl, fun same => same ▸ .entity target⟩
  | list kind elem => by
    rw [targets, ← walks_iff elem]
    exact ⟨fun | .elem inside => inside, .elem⟩
  | map kind key value => by
    rw [targets, List.mem_append, ← walks_iff key, ← walks_iff value]
    constructor
    · rintro (_ | _ | inside | inside)
      · exact .inl inside
      · exact .inr inside
    · rintro (inside | inside)
      · exact .key inside
      · exact .value inside

theorem holdsEntities_eq : (type : ResolvedType) → type.holdsEntities = !type.targets.isEmpty
  | leaf _ | entity _ | other _ _ => rfl
  | list _ elem => holdsEntities_eq elem
  | map _ key value => by
    rw [holdsEntities, holdsEntities_eq key, holdsEntities_eq value, targets]
    cases key.targets <;> rfl

/-- Entities are held where containers are walked and nowhere else. -/
theorem holdsEntities_iff (type : ResolvedType) :
    type.holdsEntities = true ↔ ∃ target, type.Walks target := by
  simp only [holdsEntities_eq, walks_iff, Bool.not_eq_true', List.isEmpty_eq_false_iff_exists_mem]

end ResolvedType

def Container.arity : Container → Nat
  | list _ => 1
  | map _ => 2

namespace EntityTable

/-- The node that stands for a type, by its form without parentheses and groups. -/
inductive Form (table : EntityTable) (ty : Ty) : ResolvedType → Prop
  | entity {name : Ident} {target : EntityType} : ty.core = .path false [.bare name] →
      table.lookup name.text = some target → Form table ty (.entity target)
  | list {path : Path} {kind : ListKind} {arg : Ty} : ty.core = path.ty →
      path.Denotes (.list kind) → path.typeArgs = [arg] →
      Form table ty (.list kind (table.resolve arg))
  | map {path : Path} {kind : MapKind} {key value : Ty} : ty.core = path.ty →
      path.Denotes (.map kind) → path.typeArgs = [key, value] →
      Form table ty (.map kind (table.resolve key) (table.resolve value))
  | other {path : Path} : ty.core = path.ty → path.typeArgs ≠ [] →
      (∀ container, path.Denotes container → path.typeArgs.length ≠ container.arity) →
      Form table ty (.other path.withoutLastArgs (path.typeArgs.map table.resolve))
  /-- Neither a name of the table nor a path with type arguments. -/
  | leaf : (∀ name, ty.core = .path false [.bare name] → table.lookup name.text = none) →
      (∀ path : Path, ty.core = path.ty → path.typeArgs = []) → Form table ty (.leaf ty.core)

variable {table : EntityTable} {path : Path} {args : List ResolvedType}

theorem resolve_core (table : EntityTable) (ty : Ty) : table.resolve ty.core = table.resolve ty := by
  fun_induction Ty.core ty with
  | case1 inner ih => exact ih
  | case2 inner ih => exact ih
  | case3 => rfl

theorem resolveTypes_eq (table : EntityTable) (args : List Arg) :
    table.resolveTypes args = (args.filterMap Arg.type?).map table.resolve := by
  induction args with
  | nil => rfl
  | cons arg rest ih =>
    rw [List.filterMap_cons]
    cases arg with
    | lifetime | other => exact ih
    | ty inner => exact congrArg (table.resolve inner :: ·) ih

theorem resolveLast_eq (table : EntityTable) (leading : Bool) (segments : List Segment) :
    table.resolveLast segments = (Path.typeArgs ⟨leading, segments⟩).map table.resolve := by
  induction segments with
  | nil => rfl
  | cons first rest ih =>
    cases rest with
    | nil =>
      obtain ⟨name, _ | ⟨turbofish, args, trailing⟩⟩ := first
      · rfl
      · exact resolveTypes_eq table args
    | cons => exact ih

theorem resolve_path (table : EntityTable) (path : Path) :
    table.resolve path.ty = table.resolvePath path (path.typeArgs.map table.resolve) := by
  rw [← resolveLast_eq table path.leading path.segments]
  rfl

end EntityTable

namespace Path

variable {path : Path}

theorem ty_injective : Function.Injective ty
  | ⟨_, _⟩, ⟨_, _⟩, rfl => rfl

theorem denotes_concat_iff {leading : Bool} {before : List Segment} {last : Segment}
    {container : Container} : Path.Denotes ⟨leading, before ++ [last]⟩ container ↔
      last.name = ⟨container.name, false⟩ ∧ ((before = [] ∧ leading = false) ∨
        ∃ first rest root, before = first :: rest ∧ root ∈ Container.roots ∧
          first.name = ⟨root, false⟩) := by
  constructor
  · rintro ⟨front, final, same, named, rooted⟩
    obtain ⟨rfl, alone⟩ := List.append_inj' same rfl
    obtain rfl := List.singleton_inj.mp alone
    exact ⟨named, rooted⟩
  · exact fun ⟨named, rooted⟩ => ⟨before, last, rfl, named, rooted⟩

theorem bare?_eq_some_iff {name : Ident} : path.bare? = some name ↔ path = ⟨false, [.bare name]⟩ := by
  unfold bare?
  split
  next => simp [Segment.bare]
  next other =>
    simp only [reduceCtorEq, false_iff]
    rintro rfl
    exact other name rfl

theorem bare?_eq_none_of_typeArgs (args : path.typeArgs ≠ []) : path.bare? = none := by
  rw [← Option.not_isSome_iff_eq_none, Option.isSome_iff_exists]
  rintro ⟨name, bare⟩
  obtain rfl := bare?_eq_some_iff.mp bare
  exact args rfl

end Path

namespace Container

theorem find?_all_eq_some_iff {name : Ident} {container : Container} :
    all.find? (fun container => name == ⟨container.name, false⟩) = some container ↔
      name = ⟨container.name, false⟩ := by
  constructor
  · intro found
    simpa using List.find?_some found
  · rintro rfl
    rcases container with (_ | _ | _) | (_ | _) <;> decide

theorem ofPath?_eq_some_iff {path : Path} {container : Container} :
    ofPath? path = some container ↔ path.Denotes container := by
  obtain ⟨leading, segments⟩ := path
  rcases List.eq_nil_or_concat' segments with rfl | ⟨before, last, rfl⟩
  · simp [ofPath?, Path.Denotes]
  rw [Path.denotes_concat_iff]
  -- A path of one name is rooted if no double colon is in front, a longer one by its first name.
  rcases before with _ | ⟨first, _ | ⟨second, rest⟩⟩
  · simp [ofPath?, Option.bind_eq_some_iff, find?_all_eq_some_iff]
  · simp [ofPath?, Option.bind_eq_some_iff, find?_all_eq_some_iff]
  · have final : (second :: (rest ++ [last])).getLast? = some last := by
      rw [← List.cons_append, List.getLast?_concat]
    simp [ofPath?, Option.bind_eq_some_iff, find?_all_eq_some_iff, final]

end Container

namespace EntityTable

variable {table : EntityTable} {path : Path} {ty : Ty}

theorem resolve_of_named {name : Ident} {target : EntityType}
    (found : table.lookup name.text = some target) :
    table.resolve (.path false [.bare name]) = .entity target := by
  simp [resolve, resolvePath, Path.bare?, Segment.bare, found]

theorem resolve_of_plain (plain : path.typeArgs = [])
    (free : ∀ name, path = ⟨false, [.bare name]⟩ → table.lookup name.text = none) :
    table.resolve path.ty = .leaf path.ty := by
  have nothing : (path.bare?.bind fun name => table.lookup name.text) = none :=
    Option.bind_eq_none_iff.mpr fun name bare => free name (Path.bare?_eq_some_iff.mp bare)
  rw [resolve_path, plain]
  unfold resolvePath
  rw [nothing]
  rfl

/-- A path with type arguments is no entity: it is a container or any other type. -/
theorem resolve_of_typeArgs (nonempty : path.typeArgs ≠ []) : table.resolve path.ty =
    match path.typeArgs.map table.resolve, Container.ofPath? path with
    | [elem], some (.list kind) => .list kind elem
    | [key, value], some (.map kind) => .map kind key value
    | args, _ => .other path.withoutLastArgs args := by
  rw [resolve_path]
  unfold resolvePath
  rw [Path.bare?_eq_none_of_typeArgs nonempty, Option.bind_none]
  obtain ⟨first, rest, args⟩ := List.exists_cons_of_ne_nil nonempty
  rw [args, List.map_cons]
  rcases rest with _ | ⟨_, _ | _⟩ <;> rcases Container.ofPath? path with _ | ⟨_ | _⟩ <;> rfl

/-- A type with neither a name of the table nor type arguments is kept as it is. -/
theorem resolve_of_leaf : (ty : Ty) →
    (∀ name, ty.core = .path false [.bare name] → table.lookup name.text = none) →
    (∀ path : Path, ty.core = path.ty → path.typeArgs = []) → table.resolve ty = .leaf ty.core
  | .paren inner, free, plain => resolve_of_leaf inner free plain
  | .group inner, free, plain => resolve_of_leaf inner free plain
  | .path leading segments, free, plain =>
    resolve_of_plain (plain ⟨leading, segments⟩ rfl) fun name same =>
      free name (congrArg Path.ty same)
  | .inferred, _, _ | .implTrait _, _, _ | .invocation _, _, _ | .composite _, _, _ => rfl

theorem Form.congr {other : Ty} {type : ResolvedType} (form : table.Form ty type)
    (same : other.core = ty.core) : table.Form other type := by
  cases form with
  | entity named found => exact .entity (same.trans named) found
  | list named denotes single => exact .list (same.trans named) denotes single
  | map named denotes pair => exact .map (same.trans named) denotes pair
  | other named nonempty unfit => exact .other (same.trans named) nonempty unfit
  | leaf free plain =>
    rw [← same] at free plain ⊢
    exact .leaf free plain

/-- A node has the form that the type has. -/
theorem resolve_of_form {type : ResolvedType} (form : table.Form ty type) :
    table.resolve ty = type := by
  cases form with
  | entity named found => rw [← resolve_core, named, resolve_of_named found]
  | list named denotes single =>
    rw [← resolve_core, named, resolve_of_typeArgs (by simp [single]), single,
      Container.ofPath?_eq_some_iff.mpr denotes]
    rfl
  | map named denotes pair =>
    rw [← resolve_core, named, resolve_of_typeArgs (by simp [pair]), pair,
      Container.ofPath?_eq_some_iff.mpr denotes]
    rfl
  | other named nonempty unfit =>
    rw [← resolve_core, named, resolve_of_typeArgs nonempty]
    split
    next single denotes =>
      refine absurd ?_ (unfit _ (Container.ofPath?_eq_some_iff.mp denotes))
      rw [← List.length_map table.resolve, single]
      rfl
    next pair denotes =>
      refine absurd ?_ (unfit _ (Container.ofPath?_eq_some_iff.mp denotes))
      rw [← List.length_map table.resolve, pair]
      rfl
    next => rfl
  | leaf free plain => exact resolve_of_leaf ty free plain

theorem form_of_typeArgs (path : Path) (nonempty : path.typeArgs ≠ []) :
    table.Form path.ty (table.resolve path.ty) := by
  rw [resolve_of_typeArgs nonempty]
  split
  next elem kind single denotes =>
    obtain ⟨arg, args, rfl⟩ := List.map_eq_singleton_iff.mp single
    exact .list rfl (Container.ofPath?_eq_some_iff.mp denotes) args
  next key value kind pair denotes =>
    obtain ⟨_, _, args, rfl, rest⟩ := List.map_eq_cons_iff.mp pair
    obtain ⟨_, rfl, rfl⟩ := List.map_eq_singleton_iff.mp rest
    exact .map rfl (Container.ofPath?_eq_some_iff.mp denotes) args
  next notList notMap =>
    refine .other rfl nonempty fun container denotes fits => ?_
    have found := Container.ofPath?_eq_some_iff.mpr denotes
    cases container with
    | list kind =>
      obtain ⟨arg, args⟩ := List.length_eq_one_iff.mp fits
      exact notList _ kind (by rw [args]; rfl) found
    | map kind =>
      obtain ⟨key, value, args⟩ := List.length_eq_two.mp fits
      exact notMap _ _ kind (by rw [args]; rfl) found

/-- Each type has the form of its node. -/
theorem form_resolve (table : EntityTable) : (ty : Ty) → table.Form ty (table.resolve ty)
  | .paren inner => (form_resolve table inner).congr rfl
  | .group inner => (form_resolve table inner).congr rfl
  | .inferred | .implTrait _ | .invocation _ | .composite _ => .leaf nofun nofun
  | .path leading segments => by
    by_cases nonempty : Path.typeArgs ⟨leading, segments⟩ ≠ []
    · exact form_of_typeArgs ⟨leading, segments⟩ nonempty
    rw [ne_eq, not_not] at nonempty
    cases found : (Path.bare? ⟨leading, segments⟩).bind fun name => table.lookup name.text with
    | some target =>
      obtain ⟨name, bare, found⟩ := Option.bind_eq_some_iff.mp found
      obtain ⟨rfl, rfl⟩ := Path.mk.inj (Path.bare?_eq_some_iff.mp bare)
      rw [resolve_of_named found]
      exact .entity rfl found
    | none =>
      have free : ∀ name, Ty.path leading segments = .path false [.bare name] →
          table.lookup name.text = none := by
        intro name same
        obtain ⟨rfl, rfl⟩ := Ty.path.inj same
        exact found
      have plain : ∀ path : Path, Ty.path leading segments = path.ty → path.typeArgs = [] := by
        intro path same
        obtain ⟨rfl, rfl⟩ := Ty.path.inj same
        exact nonempty
      have leaf : table.resolve (.path leading segments) = .leaf (.path leading segments) :=
        resolve_of_leaf (.path leading segments) free plain
      rw [leaf]
      exact .leaf free plain

/-- The form of a type says what its node is. -/
theorem resolve_eq_iff {type : ResolvedType} : table.resolve ty = type ↔ table.Form ty type :=
  ⟨fun same => same ▸ form_resolve table ty, resolve_of_form⟩

theorem place_of_core {found : Ty} : (ty : Ty) → ty.core.Place found → ty.Place found
  | .paren inner, place => .paren (place_of_core inner place)
  | .group inner, place => .group (place_of_core inner place)
  | .path _ _, place | .inferred, place | .implTrait _, place | .invocation _, place
  | .composite _, place => place

/-- What stands at a place is a node of the resolved form. -/
theorem node_of_place {found : Ty} (place : ty.Place found) :
    (table.resolve ty).Node (table.resolve found) := by
  induction place with
  | here ty => exact .here _
  | paren _ ih => exact ih
  | group _ ih => exact ih
  | @argument path arg found member _ ih =>
    generalize type : table.resolve path.ty = node
    cases resolve_eq_iff.mp type with
    | @entity name target named =>
      obtain rfl : path = ⟨false, [.bare name]⟩ := Path.ty_injective named
      cases member
    | leaf _ plain => rw [plain path rfl] at member; cases member
    | list named denotes single =>
      obtain rfl := Path.ty_injective named
      rw [single, List.mem_singleton] at member
      exact .elem (member ▸ ih)
    | map named denotes pair =>
      obtain rfl := Path.ty_injective named
      rw [pair, List.mem_pair] at member
      obtain rfl | rfl := member
      · exact .key ih
      · exact .value ih
    | other named nonempty unfit =>
      obtain rfl := Path.ty_injective named
      exact .argument (List.mem_map_of_mem member) ih

/-- A place in a type argument of what a type is without its parentheses and groups. -/
theorem place_of_typeArg {arg found : Ty} (named : ty.core = path.ty) (member : arg ∈ path.typeArgs)
    (place : arg.Place found) : ty.Place found :=
  place_of_core ty (named ▸ .argument member place)

/-- Each node stands for a type at a place. -/
theorem exists_place_of_node {type node : ResolvedType} (inside : type.Node node) :
    ∀ {ty : Ty}, table.resolve ty = type → ∃ found, ty.Place found ∧ table.resolve found = node := by
  induction inside with
  | here type => exact fun {ty} same => ⟨ty, .here ty, same⟩
  | elem _ ih =>
    intro ty same
    cases resolve_eq_iff.mp same with
    | list named denotes single =>
      obtain ⟨found, place, same⟩ := ih rfl
      exact ⟨found, place_of_typeArg named (by simp [single]) place, same⟩
  | key _ ih =>
    intro ty same
    cases resolve_eq_iff.mp same with
    | map named denotes pair =>
      obtain ⟨found, place, same⟩ := ih rfl
      exact ⟨found, place_of_typeArg named (by simp [pair]) place, same⟩
  | value _ ih =>
    intro ty same
    cases resolve_eq_iff.mp same with
    | map named denotes pair =>
      obtain ⟨found, place, same⟩ := ih rfl
      exact ⟨found, place_of_typeArg named (by simp [pair]) place, same⟩
  | argument member _ ih =>
    intro ty same
    cases resolve_eq_iff.mp same with
    | other named nonempty unfit =>
      obtain ⟨arg, argMember, rfl⟩ := List.mem_map.mp member
      obtain ⟨found, place, same⟩ := ih rfl
      exact ⟨found, place_of_typeArg named argMember place, same⟩

/-- The nodes of the resolved form are those of the types at the places. -/
theorem node_resolve_iff {node : ResolvedType} :
    (table.resolve ty).Node node ↔ ∃ found, ty.Place found ∧ table.resolve found = node :=
  ⟨fun inside => exists_place_of_node inside rfl, fun ⟨_, place, same⟩ => same ▸ node_of_place place⟩

theorem typeArgs_concat (leading : Bool) (before : List Segment) (last : Segment) :
    Path.typeArgs ⟨leading, before ++ [last]⟩ = last.args.types := by
  simp [Path.typeArgs]

/-- Which container a path denotes does not depend on the arguments of its last segment. -/
theorem ofPath?_concat (leading : Bool) (before : List Segment) (name : Ident) (a b : Args) :
    Container.ofPath? ⟨leading, before ++ [.mk name a]⟩ =
      Container.ofPath? ⟨leading, before ++ [.mk name b]⟩ := by
  ext container
  rw [Container.ofPath?_eq_some_iff, Container.ofPath?_eq_some_iff, Path.denotes_concat_iff,
    Path.denotes_concat_iff]
  rfl

/-- Parentheses and groups around what stands at a place make no difference. -/
theorem resolve_wraps {other : Ty} (wraps : ty.Wraps other) :
    table.resolve other = table.resolve ty := by
  induction wraps with
  | paren ty | group ty => rfl
  | inParen _ ih => exact ih
  | inGroup _ ih => exact ih
  | @argument a b leading before name turbofish left right trailing _ ih =>
    -- Both have type arguments, with the same images, and the same name before them.
    have args (inner : Ty) : Path.typeArgs
        ⟨leading, before ++ [⟨name, .angle turbofish (left ++ .ty inner :: right) trailing⟩]⟩ =
        left.filterMap Arg.type? ++ inner :: right.filterMap Arg.type? := by
      simp [typeArgs_concat, Segment.args, Args.types, Arg.type?]
    have nonempty (inner : Ty) : Path.typeArgs
        ⟨leading, before ++ [⟨name, .angle turbofish (left ++ .ty inner :: right) trailing⟩]⟩ ≠ [] :=
      args inner ▸ List.append_ne_nil_of_right_ne_nil _ nofun
    refine (resolve_of_typeArgs (nonempty b)).trans (.trans ?_ (resolve_of_typeArgs (nonempty a)).symm)
    rw [args a, args b, ofPath?_concat leading before name (.angle turbofish (left ++ .ty b :: right) _)
      (.angle turbofish (left ++ .ty a :: right) trailing), List.map_append, List.map_cons, ih,
      ← List.map_cons, ← List.map_append]
    simp only [Path.withoutLastArgs, List.dropLast_concat, List.getLast?_concat, Segment.name]

/-- No leaf is a name of the table. -/
theorem not_node_leaf {name : Ident} {target : EntityType}
    (found : table.lookup name.text = some target) :
    ¬ (table.resolve ty).Node (.leaf (.path false [.bare name])) := by
  intro inside
  obtain ⟨kept, _, same⟩ := node_resolve_iff.mp inside
  generalize type : ResolvedType.leaf (.path false [.bare name]) = node at same
  cases resolve_eq_iff.mp same with
  | leaf free plain =>
    have unknown : table.lookup name.text = none := free name (ResolvedType.leaf.inj type).symm
    exact absurd (unknown.symm.trans found) nofun
  | entity | list | map | other => cases type

structure Classified (table : EntityTable) (ty : Ty) : Prop where
  /-- The nodes are those of the types at the places. -/
  node_iff : ∀ node, (table.resolve ty).Node node ↔
    ∃ found, ty.Place found ∧ table.resolve found = node
  /-- The form of the type at a place decides its node. -/
  resolve_iff_form : ∀ found, ty.Place found → ∀ node, table.resolve found = node ↔
    table.Form found node
  leaf_unknown : ∀ name target, table.lookup name.text = some target →
    ¬ (table.resolve ty).Node (.leaf (.path false [.bare name]))
  /-- Parentheses and groups at a place make no difference. -/
  wraps : ∀ other, ty.Wraps other → table.resolve other = table.resolve ty
  holds_iff : (table.resolve ty).holdsEntities = true ↔ ∃ target, (table.resolve ty).Walks target

/-- Every type is classified by the forms of what stands at its places. -/
theorem classified (table : EntityTable) (ty : Ty) : table.Classified ty where
  node_iff _ := node_resolve_iff
  resolve_iff_form _ _ _ := resolve_eq_iff
  leaf_unknown _ _ found := not_node_leaf found
  wraps _ wraps := resolve_wraps wraps
  holds_iff := ResolvedType.holdsEntities_iff _

end EntityTable

end EntityGen
