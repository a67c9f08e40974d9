import EntityGen.Proofs.Generated.Accessors
import EntityGen.Proofs.Round.Offers
import EntityGen.Proofs.Text.Stems
import EntityGen.Proofs.Token.Words
import EntityGen.Round.Expansion

/-! When a round comes to an end. All names that are made from the stem of an entity are names,
except that the one of its field in the store has nothing in front of the stem. A round ends in a
fault if such a field is needed and the stem does not begin as an identifier does. -/
namespace EntityGen

/-- The type name of an entity is spelled as an identifier and is no keyword. -/
theorem Round.of_mem_entitiesOf {items : List Item} {entity : Entity}
    (member : entity ∈ Round.entitiesOf items) :
    isIdentifierText entity.name.name ∧ entity.name.isKeyword = false := by
  obtain ⟨spec, accepted, rfl⟩ := Resolution.mem_entities_iff.mp member
  have inside := (Resolution.faithful_sort _).members spec accepted
  obtain ⟨_, -, read⟩ := Intake.exists_struct_of_mem_ofItems [] items spec inside
  obtain ⟨-, -, -, -, ⟨_, named⟩, -⟩ := Spec.of_ofStruct read
  exact Ident.of_ofText? named

namespace Naming

structure Derived (x : Ident) : Prop where
  getMethod : isIdentifierText (getMethod x).name
  putMethod : isIdentifierText (putMethod x).name
  readMethod : isIdentifierText (readMethod x).name
  writeMethod : isIdentifierText (writeMethod x).name
  /-- There is a field by how the stem begins. -/
  byIdField : (∃ field, byIdField x = .ok field ∧ isIdentifierText field.name) ↔ StemBegins x

theorem exists_byIdField_iff {x : Ident} (valid : isIdentifierText x.name) :
    (∃ field, byIdField x = .ok field) ↔ StemBegins x := by
  rw [← isIdentifierText_byId_iff valid]
  simp only [byIdField]
  split
  next good => exact iff_of_true ⟨_, rfl⟩ good
  next bad =>
    refine iff_of_false ?_ bad
    rintro ⟨_, same⟩
    cases same

theorem derived {x : Ident} (valid : isIdentifierText x.name) : Derived x where
  getMethod := isIdentifierText_append_stem (by decide) valid
  putMethod := isIdentifierText_append_stem (by decide) valid
  readMethod := isIdentifierText_append_stem (by decide) valid
  writeMethod := isIdentifierText_append_stem (by decide) valid
  byIdField := by
    constructor
    · rintro ⟨field, named, -⟩
      exact (exists_byIdField_iff valid).mp ⟨field, named⟩
    · intro begins
      obtain ⟨field, named⟩ := (exists_byIdField_iff valid).mpr begins
      refine ⟨field, named, ?_⟩
      rw [byIdField_eq_ok named]
      exact (isIdentifierText_byId_iff valid).mpr begins

end Naming

open Generated

variable {runtime : Path} {entities : List Entity} {settings : Settings} {items : List Item}

def Entity.Fielded (entities : List Entity) : Prop :=
  ∀ entity ∈ entities, ∃ field, Naming.byIdField entity.name = .ok field

namespace Generated.MemoryStore

variable {β : Type} {make : Entity → Except BadName β} {bad : BadName}

/-- What is made for an entity is made with the name of its field. -/
def MadeOfField (make : Entity → Except BadName β) : Prop :=
  ∃ build : Entity → Ident → β, ∀ entity,
    make entity = Naming.byIdField entity.name >>= fun field => .ok (build entity field)

theorem madeOfField_field : MadeOfField (MemoryStore.field runtime) := ⟨_, fun _ => rfl⟩

theorem madeOfField_get : MadeOfField (MemoryStore.get runtime) := ⟨_, fun _ => rfl⟩

theorem madeOfField_put : MadeOfField (MemoryStore.put runtime) := ⟨_, fun _ => rfl⟩

theorem exists_parts_iff (made : MadeOfField make) :
    (∃ parts, entities.mapM make = .ok parts) ↔ Entity.Fielded entities := by
  obtain ⟨build, made⟩ := made
  rw [EntityGen.exists_mapM_iff]
  refine forall₂_congr fun entity _ => ?_
  rw [made]
  cases Naming.byIdField entity.name <;> simp [bind, Except.bind]

theorem exists_badField (made : MadeOfField make) (failed : entities.mapM make = .error bad) :
    ∃ entity ∈ entities, Naming.byIdField entity.name = .error bad := by
  obtain ⟨build, made⟩ := made
  obtain ⟨entity, member, failed⟩ := exists_error_of_mapM failed
  refine ⟨entity, member, ?_⟩
  rw [made] at failed
  cases named : Naming.byIdField entity.name with
  | ok field =>
    rw [named] at failed
    cases failed
  | error other =>
    rw [named] at failed
    rw [Except.error.inj failed]

end Generated.MemoryStore

namespace Part

variable {part : Part} {bad : BadName}

theorem exists_decls (apart : Entity.Apart entities) (fielded : Entity.Fielded entities) :
    ∃ group, part.decls runtime entities = .ok group := by
  have free := (accessorClash?_eq_none_iff part).mpr apart
  obtain ⟨fields, fields_ok⟩ :=
    (MemoryStore.exists_parts_iff (@MemoryStore.madeOfField_field runtime)).mpr fielded
  obtain ⟨getters, getters_ok⟩ :=
    (MemoryStore.exists_parts_iff (@MemoryStore.madeOfField_get runtime)).mpr fielded
  obtain ⟨putters, putters_ok⟩ :=
    (MemoryStore.exists_parts_iff (@MemoryStore.madeOfField_put runtime)).mpr fielded
  unfold decls
  rw [checkAccessors_eq, free]
  cases part with
  | entity | repository | repositoryInterfaces => exact ⟨_, rfl⟩
  | store =>
    simp only [MemoryStore.typeDecl, fields_ok, getters_ok, putters_ok]
    exact ⟨_, rfl⟩
  | storeInterfaces =>
    simp only [Interfaces.storeReader, Interfaces.storeWriter, getters_ok, putters_ok]
    exact ⟨_, rfl⟩

theorem error_of_mapError {α : Type} {first : Except BadName α}
    (failed : first.mapError .badName = .error (PartError.badName bad)) : first = .error bad := by
  cases first with
  | error cause => exact congrArg Except.error (PartError.badName.inj (Except.error.inj failed))
  | ok => cases failed

theorem exists_badField_of_storeSide (store : MemoryStore.typeDecl runtime entities = .error bad ∨
      Interfaces.storeReader runtime entities = .error bad ∨
      Interfaces.storeWriter runtime entities = .error bad) :
    ∃ entity ∈ entities, Naming.byIdField entity.name = .error bad := by
  rcases store with failed | failed | failed
  · rcases error_of_bind failed with failed | ⟨_, -, failed⟩
    · exact MemoryStore.exists_badField MemoryStore.madeOfField_field failed
    rcases error_of_bind failed with failed | ⟨_, -, failed⟩
    · exact MemoryStore.exists_badField MemoryStore.madeOfField_get failed
    rcases error_of_bind failed with failed | ⟨_, -, failed⟩
    · exact MemoryStore.exists_badField MemoryStore.madeOfField_put failed
    cases failed
  · rcases error_of_bind failed with failed | ⟨_, -, failed⟩
    · exact MemoryStore.exists_badField MemoryStore.madeOfField_get failed
    cases failed
  · rcases error_of_bind failed with failed | ⟨_, -, failed⟩
    · exact MemoryStore.exists_badField MemoryStore.madeOfField_put failed
    cases failed

/-- A part fails for the name of a field, if not for a clash. -/
theorem exists_badField (failed : part.decls runtime entities = .error (.badName bad)) :
    ∃ entity ∈ entities, Naming.byIdField entity.name = .error bad := by
  refine @exists_badField_of_storeSide runtime entities bad ?_
  cases part with
  | entity => cases failed
  | store =>
    rcases error_of_bind failed with failed | ⟨_, -, failed⟩
    · obtain ⟨_, _, -, same⟩ := of_checkAccessors_eq_error failed
      cases same
    rcases error_of_bind failed with failed | ⟨_, -, failed⟩
    · exact .inl (error_of_mapError failed)
    cases failed
  | storeInterfaces =>
    rcases error_of_bind failed with failed | ⟨_, -, failed⟩
    · obtain ⟨_, _, -, same⟩ := of_checkAccessors_eq_error failed
      cases same
    rcases error_of_bind failed with failed | ⟨_, -, failed⟩
    · exact .inr (.inl (error_of_mapError failed))
    rcases error_of_bind failed with failed | ⟨_, -, failed⟩
    · exact .inr (.inr (error_of_mapError failed))
    cases failed
  | repository | repositoryInterfaces =>
    rcases error_of_bind failed with failed | ⟨_, -, failed⟩
    · obtain ⟨_, _, -, same⟩ := of_checkAccessors_eq_error failed
      cases same
    cases failed

end Part

namespace Round

theorem exists_eventsOf (fielded : Entity.Apart entities → Entity.Fielded entities) (part : Part) :
    ∃ group, eventsOf runtime entities part = .ok group := by
  by_cases apart : Entity.Apart entities
  · obtain ⟨decls, done⟩ := Part.exists_decls apart (fielded apart)
    exact ⟨_, by rw [eventsOf, done]⟩
  · cases found : part.accessorClash? entities with
    | none => exact absurd ((Part.accessorClash?_eq_none_iff part).mp found) apart
    | some clash =>
      by_cases stored : part.inStore
      · exact ⟨_, eventsOf_of_clash stored found⟩
      · obtain rfl : part = .entity := by cases part <;> simp_all [Part.inStore]
        exact ⟨_, eventsOf_entity⟩

theorem exists_badField {bad : BadName} {part : Part}
    (failed : eventsOf runtime entities part = .error bad) :
    ∃ entity ∈ entities, Naming.byIdField entity.name = .error bad := by
  unfold eventsOf at failed
  split at failed
  next => cases failed
  next => cases failed
  next found => exact Part.exists_badField (Except.error.inj failed ▸ found)

/-- A round can be planned if its entities have their fields wherever there is a store side. -/
theorem exists_events_iff :
    (∃ all, events settings.runtime (entitiesOf items) (storeClash? settings items).isSome = .ok all) ↔
      (HasStoreSide settings items → Entity.Fielded (entitiesOf items)) := by
  have mapped : (∃ all, events settings.runtime (entitiesOf items)
      (storeClash? settings items).isSome = .ok all) ↔
      ∀ part ∈ .entity :: if passesStore settings items then [] else Part.all.filter Part.inStore,
        ∃ group, eventsOf settings.runtime (entitiesOf items) part = .ok group := by
    rw [← exists_mapM_iff, ← parts_eq]
    constructor
    · rintro ⟨all, done⟩
      obtain ⟨groups, grouped, -⟩ := ok_of_bind done
      exact ⟨groups, grouped⟩
    · rintro ⟨groups, grouped⟩
      refine ⟨groups.flatten, ?_⟩
      exact congrArg (· >>= fun groups : List (List Event) => Except.ok groups.flatten) grouped
  rw [mapped, List.forall_mem_cons]
  constructor
  · rintro ⟨-, stored⟩ present
    rw [passesStore_eq_false_iff.mpr ⟨present.inhabited, present.free⟩] at stored
    obtain ⟨group, done⟩ := stored .store (by decide)
    obtain ⟨decls, done, -⟩ := exists_decls_of_eventsOf present.apart done
    obtain ⟨memory, memory_ok, -⟩ := Part.store_decls done
    obtain ⟨fields, -, -, made, -⟩ := MemoryStore.of_typeDecl memory_ok
    exact (MemoryStore.exists_parts_iff MemoryStore.madeOfField_field).mp ⟨fields, made⟩
  · intro fielded
    refine ⟨⟨_, eventsOf_entity⟩, fun part member => ?_⟩
    by_cases passed : passesStore settings items
    · rw [if_pos passed] at member
      cases member
    · obtain ⟨inhabited, free⟩ := passesStore_eq_false_iff.mp (Bool.eq_false_iff.mpr passed)
      exact exists_eventsOf (fun apart => fielded ⟨inhabited, free, apart⟩) part

/-- Every stem begins as an identifier does, where there is a store side. -/
def Plannable (settings : Settings) (items : List Item) : Prop :=
  HasStoreSide settings items → ∀ entity ∈ entitiesOf items, Naming.StemBegins entity.name

theorem fielded_iff : Entity.Fielded (entitiesOf items) ↔
    ∀ entity ∈ entitiesOf items, Naming.StemBegins entity.name :=
  forall₂_congr fun _ member => Naming.exists_byIdField_iff (of_mem_entitiesOf member).1

theorem exists_run_iff {σ : Type} (sink : Sink σ) (start : σ) :
    (∃ round, run settings items sink start = .ok round) ↔ Plannable settings items := by
  rw [Plannable, ← fielded_iff, ← exists_events_iff]
  constructor
  · rintro ⟨round, done⟩
    obtain ⟨all, planned, -⟩ : ∃ all, events settings.runtime (entitiesOf items)
      (storeClash? settings items).isSome = .ok all ∧ _ := ok_of_bind done
    exact ⟨all, planned⟩
  · rintro ⟨all, planned⟩
    obtain ⟨reports, -, runs⟩ := exists_run_eq planned
    exact ⟨_, runs sink start⟩

theorem run_eq_error_iff {σ : Type} {sink : Sink σ} {start : σ} {bad : BadName} :
    run settings items sink start = .error bad ↔
      events settings.runtime (entitiesOf items) (storeClash? settings items).isSome = .error bad := by
  constructor
  · intro failed
    rcases error_of_bind failed with planning | ⟨_, -, failed⟩
    · exact planning
    · cases failed
  · intro planning
    change (events settings.runtime (entitiesOf items) (storeClash? settings items).isSome >>= _) = _
    rw [planning]
    rfl

/-- A round that does not end fails at a field for a stem that does not begin as an identifier. -/
theorem exists_of_run_error {σ : Type} {sink : Sink σ} {start : σ} {bad : BadName}
    (failed : run settings items sink start = .error bad) :
    ∃ entity ∈ entitiesOf items, ¬Naming.StemBegins entity.name ∧
      bad = ⟨Naming.stem entity.name ++ "_by_id"⟩ := by
  rcases error_of_bind (run_eq_error_iff.mp failed) with planning | ⟨_, -, planning⟩
  · obtain ⟨part, -, planning⟩ := exists_error_of_mapM planning
    obtain ⟨entity, member, named⟩ := exists_badField planning
    refine ⟨entity, member, ?_, ?_⟩
    · intro begins
      obtain ⟨field, found⟩ :=
        (Naming.exists_byIdField_iff (of_mem_entitiesOf member).1).mpr begins
      rw [named] at found
      cases found
    · simp only [Naming.byIdField] at named
      split at named
      next => cases named
      next => exact (Except.error.inj named).symm
  · cases planning

structure Ends (settings : Settings) (items : List Item) : Prop where
  /-- All names that are made from the name of an entity are names, one of them if the stem is. -/
  derived : ∀ entity ∈ entitiesOf items, Naming.Derived entity.name
  run_iff : ∀ {σ : Type} (sink : Sink σ) (start : σ),
    (∃ round, run settings items sink start = .ok round) ↔ Plannable settings items
  fault : ∀ {σ : Type} (sink : Sink σ) (start : σ) (bad : BadName),
    run settings items sink start = .error bad → ∃ entity ∈ entitiesOf items,
      ¬Naming.StemBegins entity.name ∧ bad = ⟨Naming.stem entity.name ++ "_by_id"⟩

/-- A round ends in a fault exactly at a stem that needs a field and begins as no identifier. -/
theorem ends_where_plannable (settings : Settings) (items : List Item) : Ends settings items where
  derived _ member := Naming.derived (of_mem_entitiesOf member).1
  run_iff := exists_run_iff
  fault _ _ _ := exists_of_run_error

end Round

/-! An entity whose name is a low line and a digit. -/
namespace Digits

def declared : List Item :=
  [Notes.spec "_1" ⟨"DigitSpec", false⟩ [Notes.field [Notes.idMark] "id" Notes.number]]

/-- The entity is accepted, and the round ends in a fault at the field for it. -/
theorem digit_unplanned : (Round.entitiesOf declared).map Entity.name = [⟨"_1", false⟩] ∧
    Round.found {} declared = [] ∧ Round.run {} declared Buffer.sink {} = .error ⟨"1_by_id"⟩ :=
  ⟨by decide +kernel, by decide +kernel, Round.run_eq_error_iff.mpr (by decide +kernel)⟩

end Digits
end EntityGen
