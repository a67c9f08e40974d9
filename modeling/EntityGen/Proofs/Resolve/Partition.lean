import EntityGen.Proofs.Resolve.Sorting
import EntityGen.Proofs.Spec.Accepted

/-! What becomes of the specs of a round. Each is accepted or has one error, and the table has the
types of the accepted ones, so that whatever a property mentions is an accepted entity. A name that
only rejected specs have is free. -/
namespace EntityGen

namespace Resolution

variable {specs : List Spec} {spec : Spec} {error : SpecError} {known : EntityTable}
  {sorted : Sorted} {i : Nat}

def before (specs : List Spec) (i : Nat) : Sorted :=
  (specs.take i).foldl (sortOne (candidates specs)) {}

/-- The error of a spec, if it is not accepted among others. -/
def verdict (known : EntityTable) (sorted : Sorted) (spec : Spec) : Option SpecError :=
  match accept known sorted.table spec with
  | .ok _ => none
  | .error error => some error

def verdicts (specs : List Spec) : List (Option SpecError) :=
  specs.mapIdx fun i spec => verdict (candidates specs) (before specs i) spec

theorem accepted_sortOne : (sortOne known sorted spec).accepted =
    sorted.accepted ++ if (verdict known sorted spec).isNone then [spec] else [] := by
  unfold sortOne verdict
  cases accept known sorted.table spec <;> simp

theorem errors_sortOne : (sortOne known sorted spec).errors =
    sorted.errors ++ (verdict known sorted spec).toList := by
  unfold sortOne verdict
  cases accept known sorted.table spec <;> simp

theorem before_succ (here : specs[i]? = some spec) :
    before specs (i + 1) = sortOne (candidates specs) (before specs i) spec := by
  simp [before, List.take_add_one, here, List.foldl_append]

theorem before_length (specs : List Spec) : before specs specs.length = sort specs := by
  rw [before, List.take_length, sort]

theorem faithful_before (specs : List Spec) (i : Nat) : (before specs i).Faithful specs := by
  refine List.foldlRecOn (motive := fun sorted : Sorted => sorted.Faithful specs) _ _
    ⟨by simp, by simp, by simp⟩ ?_
  intro sorted faithful spec member
  exact faithful.sortOne (List.mem_of_mem_take member)

theorem getElem?_verdicts (here : specs[i]? = some spec) :
    (verdicts specs)[i]? = some (verdict (candidates specs) (before specs i) spec) := by
  simp [verdicts, here]

/-- The accepted specs before a place, by the verdicts on them. -/
theorem accepted_before (specs : List Spec) : ∀ i ≤ specs.length, (before specs i).accepted =
    (((specs.zip (verdicts specs)).take i).filter fun judged => judged.2.isNone).map Prod.fst := by
  intro i bound
  induction i with
  | zero => rfl
  | succ i ih =>
    have here : specs[i]? = some specs[i] := List.getElem?_eq_getElem bound
    have judged : (specs.zip (verdicts specs))[i]? =
        some (specs[i], verdict (candidates specs) (before specs i) specs[i]) :=
      List.getElem?_zip_eq_some.mpr ⟨here, getElem?_verdicts here⟩
    rw [before_succ here, accepted_sortOne, ih (Nat.le_of_succ_le bound), List.take_add_one, judged]
    rw [Option.toList_some, List.filter_append, List.map_append]
    by_cases free : (verdict (candidates specs) (before specs i) specs[i]).isNone <;> simp [free]

theorem errors_before (specs : List Spec) : ∀ i ≤ specs.length,
    (before specs i).errors = ((verdicts specs).take i).filterMap id := by
  intro i bound
  induction i with
  | zero => rfl
  | succ i ih =>
    have here : specs[i]? = some specs[i] := List.getElem?_eq_getElem bound
    rw [before_succ here, errors_sortOne, ih (Nat.le_of_succ_le bound), List.take_add_one,
      getElem?_verdicts here, Option.toList_some, List.filterMap_append]
    cases verdict (candidates specs) (before specs i) specs[i] <;> rfl

theorem mem_accepted_before (bound : i ≤ specs.length) : spec ∈ (before specs i).accepted ↔
    ∃ j < i, specs[j]? = some spec ∧ (verdicts specs)[j]? = some none := by
  rw [accepted_before specs i bound]
  simp only [List.mem_map, List.mem_filter, Option.isNone_iff_eq_none]
  constructor
  · rintro ⟨⟨_, _⟩, ⟨member, rfl⟩, rfl⟩
    obtain ⟨j, below, same⟩ := List.mem_take_iff_getElem.mp member
    have entry := List.getElem?_eq_some_iff.mpr ⟨(by omega), same⟩
    exact ⟨j, by omega, List.getElem?_zip_eq_some.mp entry⟩
  · rintro ⟨j, below, here, free⟩
    have entry := List.getElem?_zip_eq_some (z := (spec, none)).mpr ⟨here, free⟩
    obtain ⟨inside, same⟩ := List.getElem?_eq_some_iff.mp entry
    exact ⟨_, ⟨List.mem_take_iff_getElem.mpr ⟨j, by omega, same⟩, rfl⟩, rfl⟩

theorem verdict_eq_none_iff (faithful : sorted.Faithful specs) :
    verdict known sorted spec = none ↔
      (known.resolve spec.idField.ty).mentionsEntity = false ∧
        ∀ other ∈ sorted.accepted, other.typeName.text ≠ spec.typeName.text := by
  have taken : sorted.table.contains spec.typeName.text ↔
      ∃ other ∈ sorted.accepted, other.typeName.text = spec.typeName.text := by
    simp only [EntityTable.contains_iff, faithful.entries]
    exact ⟨fun ⟨_, ⟨other, member, rfl⟩, same⟩ => ⟨other, member, same⟩,
      fun ⟨other, member, same⟩ => ⟨_, ⟨other, member, rfl⟩, same⟩⟩
  unfold verdict
  constructor
  · intro free
    split at free
    next larger accepted =>
      obtain ⟨plain, inserted⟩ := accept_ok accepted
      refine ⟨plain, fun other member same => ?_⟩
      exact EntityTable.not_contains_of_insert inserted (taken.mpr ⟨other, member, same⟩)
    next => cases free
  · rintro ⟨plain, others⟩
    have free : sorted.table.lookup spec.typeName.text = none := by
      rw [← Option.not_isSome_iff_eq_none]
      intro found
      obtain ⟨other, member, same⟩ := taken.mp found
      exact others other member same
    simp [accept, plain, EntityTable.insert, Spec.type, free, Except.mapError]

/-- An error names the spec and its place. The id is at fault, or else a spec that was accepted
before has the name. -/
theorem verdict_eq_some (faithful : sorted.Faithful specs)
    (rejected : verdict known sorted spec = some error) :
    error.spec = spec.name ∧ error.pos = spec.pos ∧
      if (known.resolve spec.idField.ty).mentionsEntity then
        error.fault = .invalid (.entityId spec.idField.name)
      else ∃ owner ∈ sorted.accepted, owner.typeName.text = spec.typeName.text ∧
        error.fault = .invalid (.takenName spec.typeName owner.type.text) := by
  unfold verdict accept at rejected
  by_cases mentions : (known.resolve spec.idField.ty).mentionsEntity = true
  · simp only [mentions, if_true, Option.some.injEq] at rejected
    obtain rfl := rejected
    simp [mentions]
  · simp only [mentions] at rejected ⊢
    cases inserted : sorted.table.insert spec.type with
    | ok larger => simp [inserted, Except.mapError] at rejected
    | error type =>
      obtain rfl : _ = error := by simpa [inserted, Except.mapError] using rejected
      obtain ⟨entry, same⟩ := EntityTable.mem_of_lookup (EntityTable.insert_eq_error_iff.mp inserted)
      obtain ⟨owner, accepted, rfl⟩ := (faithful.entries type).mp entry
      simpa using ⟨owner, accepted, same, rfl⟩

/-- The candidates have the names of all specs, accepted or not. -/
theorem contains_candidates_iff {name : String} :
    (candidates specs).contains name ↔ ∃ spec ∈ specs, spec.typeName.text = name := by
  constructor
  · refine List.foldlRecOn (motive := fun table : EntityTable =>
      table.contains name → ∃ spec ∈ specs, spec.typeName.text = name) specs _
      (fun taken => absurd taken Bool.false_ne_true) ?_
    intro table earlier spec member taken
    rcases EntityTable.contains_offer.mp taken with rfl | before
    · exact ⟨spec, member, rfl⟩
    · exact earlier before
  · rintro ⟨spec, member, rfl⟩
    exact contains_candidates member

/-- What a round makes of specs, with the verdict on each of them. -/
structure Partitions (specs : List Spec) (verdicts : List (Option SpecError))
    (result : Resolution) : Prop where
  judged : verdicts.length = specs.length
  accepted : result.entities.map Entity.spec =
    ((specs.zip verdicts).filter fun judged => judged.2.isNone).map Prod.fst
  rejected : result.errors = verdicts.filterMap id
  /-- The candidates are the names of all specs. -/
  named : ∀ name, (candidates specs).contains name ↔ ∃ spec ∈ specs, spec.typeName.text = name
  /-- A spec is accepted if its id mentions no candidate and none accepted before has its name. -/
  acceptance : ∀ (i : Nat) (spec : Spec), specs[i]? = some spec → (verdicts[i]? = some none ↔
    ((candidates specs).resolve spec.idField.ty).mentionsEntity = false ∧
      ∀ j < i, ∀ other : Spec, specs[j]? = some other → verdicts[j]? = some none →
        other.typeName.text ≠ spec.typeName.text)
  /-- An error tells of the spec that it is for, and which of the two conditions fails. -/
  blame : ∀ (i : Nat) (spec : Spec) (error : SpecError), specs[i]? = some spec →
    verdicts[i]? = some (some error) → error.spec = spec.name ∧ error.pos = spec.pos ∧
      if ((candidates specs).resolve spec.idField.ty).mentionsEntity then
        error.fault = .invalid (.entityId spec.idField.name)
      else ∃ j < i, ∃ owner : Spec, specs[j]? = some owner ∧ verdicts[j]? = some none ∧
        owner.typeName.text = spec.typeName.text ∧
          error.fault = .invalid (.takenName spec.typeName owner.type.text)
  table : result.table.entries.Perm (result.entities.map Entity.type)
  distinct : (result.entities.map fun entity => entity.name.text).Nodup
  lookup : ∀ name type, result.table.lookup name = some type ↔
    ∃ entity ∈ result.entities, entity.name.text = name ∧ entity.type = type
  /-- There is a property for each field, in the order of declaration. -/
  properties : ∀ entity ∈ result.entities,
    entity.properties = entity.spec.fields.map (property result.table)
  idProperty : ∀ entity ∈ result.entities,
    entity.properties.filter Property.isId = [entity.idProperty]
  /-- Whatever a property mentions, in values or only in its type, is accepted. -/
  closed : ∀ entity ∈ result.entities, ∀ property ∈ entity.properties,
    ∀ target ∈ property.resolved.mentions, ∃ owner ∈ result.entities, owner.type = target

variable {table : EntityTable}

theorem filter_isId_entity (marked : spec.Marked) :
    (entity table spec).properties.filter Property.isId = [(entity table spec).idProperty] := by
  have ofFields : (entity table spec).properties.filter Property.isId =
      (spec.fields.filter SpecField.isId).map (property table) := List.filter_map
  have ofId : (entity table spec).idProperty = property table spec.idField := List.getElem_map _
  rw [ofFields, marked, ofId, List.map_singleton]

theorem mem_entities_iff {entity : Entity} : entity ∈ (ofSpecs specs).entities ↔
    ∃ spec ∈ (sort specs).accepted, Resolution.entity (sort specs).table spec = entity :=
  List.mem_map

theorem map_type_entities (specs : List Spec) :
    (ofSpecs specs).entities.map Entity.type = (sort specs).accepted.map Spec.type := by
  rw [ofSpecs, List.map_map]
  rfl

theorem mem_table_iff {type : EntityType} : type ∈ (ofSpecs specs).table.entries ↔
    ∃ entity ∈ (ofSpecs specs).entities, entity.type = type := by
  rw [← List.mem_map, map_type_entities]
  exact (perm_sort specs).mem_iff

theorem nodup_names (specs : List Spec) :
    ((ofSpecs specs).entities.map fun entity => entity.name.text).Nodup := by
  rw [ofSpecs, List.map_map]
  exact nodup_sort specs

theorem nodup_table (specs : List Spec) :
    ((ofSpecs specs).table.entries.map fun entry => entry.name.text).Nodup := by
  refine ((perm_sort specs).map _).nodup_iff.mpr ?_
  rw [List.map_map]
  exact nodup_sort specs

/-- The specs of a round are taken apart into accepted ones and errors. -/
theorem partition_of_marked (specs : List Spec) (marked : ∀ spec ∈ specs, spec.Marked) :
    ∃ verdicts, Partitions specs verdicts (ofSpecs specs) := by
  refine ⟨verdicts specs, ?_⟩
  exact {
    judged := List.length_mapIdx
    accepted := by
      have all := accepted_before specs specs.length (Nat.le_refl _)
      rw [before_length, List.take_of_length_le (by simp [verdicts])] at all
      rw [← all, ofSpecs, List.map_map]
      exact List.map_id _
    rejected := by
      have all := errors_before specs specs.length (Nat.le_refl _)
      rwa [before_length, List.take_of_length_le (by simp [verdicts])] at all
    named := fun _ => contains_candidates_iff
    acceptance := by
      intro i spec here
      have bound : i ≤ specs.length := Nat.le_of_lt (List.getElem?_eq_some_iff.mp here).1
      rw [getElem?_verdicts here, Option.some_inj, verdict_eq_none_iff (faithful_before specs i)]
      refine and_congr_right fun _ => ?_
      simp only [mem_accepted_before bound]
      constructor
      · intro apart j below other first free
        exact apart other ⟨j, below, first, free⟩
      · rintro apart other ⟨j, below, first, free⟩
        exact apart j below other first free
    blame := by
      intro i spec error here rejected
      have bound : i ≤ specs.length := Nat.le_of_lt (List.getElem?_eq_some_iff.mp here).1
      rw [getElem?_verdicts here, Option.some_inj] at rejected
      obtain ⟨named, placed, fault⟩ := verdict_eq_some (faithful_before specs i) rejected
      refine ⟨named, placed, ?_⟩
      by_cases mentions : ((candidates specs).resolve spec.idField.ty).mentionsEntity = true
      · rwa [if_pos mentions] at fault ⊢
      · rw [if_neg mentions] at fault ⊢
        obtain ⟨owner, accepted, same, fault⟩ := fault
        obtain ⟨j, below, first, free⟩ := (mem_accepted_before bound).mp accepted
        exact ⟨j, below, owner, first, free, same, fault⟩
    table := by
      rw [map_type_entities]
      exact perm_sort specs
    distinct := nodup_names specs
    lookup := by
      intro name type
      rw [EntityTable.lookup_eq_some_iff (nodup_table specs), mem_table_iff]
      constructor
      · rintro ⟨⟨entity, member, rfl⟩, named⟩
        exact ⟨entity, member, named, rfl⟩
      · rintro ⟨entity, member, named, rfl⟩
        exact ⟨⟨entity, member, rfl⟩, named⟩
    properties := by
      intro entity member
      obtain ⟨spec, -, rfl⟩ := mem_entities_iff.mp member
      rfl
    idProperty := by
      intro entity member
      obtain ⟨spec, accepted, rfl⟩ := mem_entities_iff.mp member
      exact filter_isId_entity (marked spec ((faithful_sort specs).members spec accepted))
    closed := by
      intro entity member property inside target mentioned
      obtain ⟨spec, -, rfl⟩ := mem_entities_iff.mp member
      obtain ⟨field, -, rfl⟩ := List.mem_map.mp inside
      exact mem_table_iff.mp (EntityTable.mem_of_mem_mentions field.ty mentioned) }

end Resolution

/-! A user that is known by another user, and two users that are known by a number. -/
namespace Users

def number : Ty := .path false [.bare ⟨"i64", false⟩]

def user : Ty := .path false [.bare ⟨"User", false⟩]

def declared (module : ModulePath) (id : Ty) (others : List Ty) : Spec :=
  { module, ident := ⟨"UserSpec", false⟩, name := "user", typeName := ⟨"User", false⟩, vis := []
    fields := ⟨⟨"id", false⟩, id, [], true⟩ :: others.map fun ty => ⟨⟨"other", false⟩, ty, [], false⟩
    id := ⟨0, by simp⟩, derives := [], attrs := [], pos := .none }

def users : List Spec :=
  [declared [] user [], declared [⟨"legacy", false⟩] number [user], declared [] number []]

theorem marked_declared (module : ModulePath) (id : Ty) (others : List Ty) :
    (declared module id others).Marked := by
  simp [Spec.Marked, declared, Spec.idField, List.filter_map, Function.comp_def]

/-- The first user is rejected, so that its name is free for the second one. -/
theorem partition_users :
    (∀ spec ∈ users, spec.Marked) ∧
      (∃ verdicts, Resolution.Partitions users verdicts (Resolution.ofSpecs users)) ∧
      (Resolution.ofSpecs users).entities.map Entity.type =
        [⟨[⟨"legacy", false⟩], ⟨"User", false⟩⟩] ∧
      (Resolution.ofSpecs users).errors.map SpecError.fault =
        [.invalid (.entityId ⟨"id", false⟩), .invalid (.takenName ⟨"User", false⟩ "legacy::User")] := by
  have marked : ∀ spec ∈ users, spec.Marked := by
    simp only [users, List.forall_mem_cons]
    exact ⟨marked_declared .., marked_declared .., marked_declared .., nofun⟩
  exact ⟨marked, Resolution.partition_of_marked users marked, by decide, by decide⟩

end Users
end EntityGen
