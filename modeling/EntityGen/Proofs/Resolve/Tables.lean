import EntityGen.Resolve.Resolution
import Mathlib.Data.List.Nodup

/-! Tables of names, and what types resolve to. A type is resolved to entities of the table only. -/
namespace EntityGen

namespace EntityTable

variable {table larger : EntityTable} {entity : EntityType}

theorem mem_of_lookup (found : table.lookup name = some entity) :
    entity ∈ table.entries ∧ entity.name.text = name :=
  ⟨List.mem_of_find?_eq_some found, by simpa using List.find?_some found⟩

/-- Names that are all different find their entries. -/
theorem lookup_eq_some_iff (distinct : (table.entries.map fun entry => entry.name.text).Nodup) :
    table.lookup name = some entity ↔ entity ∈ table.entries ∧ entity.name.text = name := by
  refine ⟨mem_of_lookup, fun ⟨member, named⟩ => ?_⟩
  obtain ⟨found, isFound⟩ : ∃ found, table.lookup name = some found :=
    Option.isSome_iff_exists.mp (List.find?_isSome.mpr ⟨entity, member, by simp [named]⟩)
  obtain ⟨inside, same⟩ := mem_of_lookup isFound
  rw [isFound, List.inj_on_of_nodup_map distinct inside member (same.trans named.symm)]

theorem contains_iff : table.contains name ↔ ∃ entity ∈ table.entries, entity.name.text = name := by
  simp [contains, lookup, List.find?_isSome]

theorem perm_place (entity : EntityType) (entries : List EntityType) :
    (place entity entries).Perm (entity :: entries) := by
  induction entries with
  | nil => rfl
  | cons entry rest ih =>
    rw [place]
    split
    · rfl
    · exact (ih.cons entry).trans (.swap ..)

theorem perm_insert (inserted : table.insert entity = .ok larger) :
    larger.entries.Perm (entity :: table.entries) := by
  unfold insert at inserted
  split at inserted
  next => cases inserted
  next =>
    obtain rfl := Except.ok.inj inserted
    exact perm_place entity table.entries

theorem mem_insert (inserted : table.insert entity = .ok larger) (other : EntityType) :
    other ∈ larger.entries ↔ other = entity ∨ other ∈ table.entries :=
  (perm_insert inserted).mem_iff.trans List.mem_cons

theorem insert_eq_error_iff {owner : EntityType} :
    table.insert entity = .error owner ↔ table.lookup entity.name.text = some owner := by
  unfold insert
  split <;> simp [*]

theorem not_contains_of_insert (inserted : table.insert entity = .ok larger) :
    ¬table.contains entity.name.text := by
  unfold insert at inserted
  split at inserted
  next => cases inserted
  next free => simp [contains, free]

/-- After an offer the name is taken, if not by the entity then by one before it. -/
theorem contains_offer : (table.offer entity).contains name ↔
    name = entity.name.text ∨ table.contains name := by
  unfold offer insert
  cases found : table.lookup entity.name.text with
  | some owner =>
    refine (or_iff_right_of_imp ?_).symm
    rintro rfl
    exact Option.isSome_of_eq_some found
  | none =>
    simp only [contains_iff, Except.toOption, Option.getD_some, (perm_place _ _).mem_iff]
    simp [or_and_right, exists_or, eq_comm]

end EntityTable

namespace ResolvedType

def targets : ResolvedType → List EntityType
  | leaf _ => []
  | entity target => [target]
  | list _ elem => elem.targets
  | map _ key value => key.targets ++ value.targets
  | other _ _ => []

mutual

/-- The types of all entities in the resolved form, in values or only in its arguments. -/
def mentions : ResolvedType → List EntityType
  | leaf _ => []
  | entity target => [target]
  | list _ elem => elem.mentions
  | map _ key value => key.mentions ++ value.mentions
  | other _ args => mentionsOfAll args

def mentionsOfAll : List ResolvedType → List EntityType
  | [] => []
  | arg :: rest => arg.mentions ++ mentionsOfAll rest

end

theorem mem_mentionsOfAll {target : EntityType} {args : List ResolvedType} :
    target ∈ mentionsOfAll args ↔ ∃ arg ∈ args, target ∈ arg.mentions := by
  induction args with
  | nil => simp [mentionsOfAll]
  | cons first rest ih => simp [mentionsOfAll, ih]

theorem targets_subset_mentions : (type : ResolvedType) → type.targets ⊆ type.mentions
  | leaf _ | other _ _ => List.nil_subset _
  | entity _ => List.Subset.refl _
  | list _ elem => targets_subset_mentions elem
  | map _ key value => fun _ member => List.mem_append.mpr ((List.mem_append.mp member).imp
      (@targets_subset_mentions key _) (@targets_subset_mentions value _))

theorem mentionsEntity_of_holdsEntities : (type : ResolvedType) → type.holdsEntities = true →
    type.mentionsEntity = true
  | leaf _, holds | other _ _, holds => nomatch holds
  | entity _, _ => rfl
  | list _ elem, holds => mentionsEntity_of_holdsEntities elem holds
  | map _ key value, holds => by
    rw [holdsEntities, Bool.or_eq_true] at holds
    rw [mentionsEntity, Bool.or_eq_true]
    exact holds.imp (mentionsEntity_of_holdsEntities key) (mentionsEntity_of_holdsEntities value)

end ResolvedType

namespace EntityTable

variable {table : EntityTable} {target : EntityType}

theorem mem_mentions_resolvePath {path : Path} {args : List ResolvedType}
    (member : target ∈ (table.resolvePath path args).mentions) :
    target ∈ table.entries ∨ ∃ arg ∈ args, target ∈ arg.mentions := by
  unfold resolvePath at member
  split at member
  next found =>
    obtain ⟨name, -, found⟩ := Option.bind_eq_some_iff.mp found
    obtain rfl := List.mem_singleton.mp member
    exact .inl (mem_of_lookup found).1
  next =>
    split at member
    · cases member
    · exact .inr ⟨_, List.mem_cons_self, member⟩
    · refine .inr ?_
      rcases List.mem_append.mp member with key | value
      · exact ⟨_, List.mem_cons_self, key⟩
      · exact ⟨_, List.mem_cons_of_mem _ List.mem_cons_self, value⟩
    · exact .inr (ResolvedType.mem_mentionsOfAll.mp member)

mutual

/-- Types are resolved to entities of the table only. -/
theorem mem_of_mem_mentions : (ty : Ty) → target ∈ (table.resolve ty).mentions →
    target ∈ table.entries
  | .path leading segments, member => by
    rw [resolve] at member
    rcases mem_mentions_resolvePath member with entry | ⟨arg, inside, member⟩
    · exact entry
    · exact mem_of_mem_resolveLast segments arg inside member
  | .paren inner, member => mem_of_mem_mentions inner member
  | .group inner, member => mem_of_mem_mentions inner member
  | .inferred, member | .implTrait _, member | .invocation _, member
  | .composite _, member => nomatch member

theorem mem_of_mem_resolveLast : (segments : List Segment) → ∀ arg ∈ resolveLast table segments,
    target ∈ arg.mentions → target ∈ table.entries
  | [], _, inside, _ => nomatch inside
  | [.mk _ args], arg, inside, member => mem_of_mem_resolveArgs args arg inside member
  | _ :: next :: rest, arg, inside, member => mem_of_mem_resolveLast (next :: rest) arg inside member

theorem mem_of_mem_resolveArgs : (args : Args) → ∀ arg ∈ resolveArgs table args,
    target ∈ arg.mentions → target ∈ table.entries
  | .none, _, inside, _ => nomatch inside
  | .angle _ args _, arg, inside, member => mem_of_mem_resolveTypes args arg inside member

theorem mem_of_mem_resolveTypes : (args : List Arg) → ∀ arg ∈ resolveTypes table args,
    target ∈ arg.mentions → target ∈ table.entries
  | [], _, inside, _ => nomatch inside
  | .ty inner :: rest, arg, inside, member => by
    rcases List.mem_cons.mp inside with rfl | later
    · exact mem_of_mem_mentions inner member
    · exact mem_of_mem_resolveTypes rest arg later member
  | .lifetime _ :: rest, arg, inside, member => mem_of_mem_resolveTypes rest arg inside member
  | .other _ :: rest, arg, inside, member => mem_of_mem_resolveTypes rest arg inside member

end

theorem mem_of_mem_targets (ty : Ty) (member : target ∈ (table.resolve ty).targets) :
    target ∈ table.entries :=
  mem_of_mem_mentions ty (ResolvedType.targets_subset_mentions _ member)

end EntityTable
end EntityGen
