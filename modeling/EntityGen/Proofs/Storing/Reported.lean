import EntityGen.Proofs.Storing.Listing

/-! The entities that a put reports are those that are reached from the one that is put. -/
namespace EntityGen

namespace Schema

variable {schema : Schema} {entity : EntityValue}

theorem length_listEntries (schema : Schema) (iteration : Iteration)
    (keyType valueType : ResolvedType) (entries : List Value) :
    (schema.listEntries iteration keyType valueType entries).length = entries.length := by
  induction entries generalizing iteration with
  | nil => rfl
  | cons entry rest ih => cases entry <;> simpa [listEntries] using ih _

def ReachesIn (schema : Schema) (type : ResolvedType) (value : Value) (entity : EntityValue) : Prop :=
  ∃ held, Holds type value held ∧ schema.Reaches held entity

theorem reachesIn_entity : schema.ReachesIn (.entity type) value entity ↔
    schema.Reaches ⟨type, value⟩ entity := by
  simp [ReachesIn]

theorem not_reachesIn (none : ∀ held, ¬Holds type value held) :
    ¬schema.ReachesIn type value entity :=
  fun ⟨held, holds, _⟩ => none held holds

mutual

theorem mem_listing (iteration : Iteration) : (type : ResolvedType) → (value : Value) →
    (entity ∈ schema.listing iteration type value ↔ schema.ReachesIn type value entity)
  | .entity type, .seq fields => by
    have nested := mem_listFields iteration (schema.properties type) fields
    rw [listing, List.mem_cons, nested, reachesIn_entity, reaches_iff]
    refine or_congr_right ?_
    constructor
    · rintro ⟨property, value, member, held, holds, reached⟩
      exact ⟨held, refers_iff.mpr ⟨fields, rfl, property, value, member, holds⟩, reached⟩
    · rintro ⟨held, refers, reached⟩
      obtain ⟨same, equal, property, value, member, holds⟩ := refers_iff.mp refers
      obtain rfl := Value.seq.inj equal
      exact ⟨property, value, member, held, holds, reached⟩
  | .entity type, .null | .entity type, .bool _ | .entity type, .int _ | .entity type, .text _
  | .entity type, .pair _ _ => by
    rw [listing, List.mem_singleton, reachesIn_entity, reaches_iff]
    · refine (or_iff_left ?_).symm
      rintro ⟨held, refers, _⟩
      obtain ⟨fields, equal, _⟩ := refers_iff.mp refers
      cases equal
    · simp
  | .list kind elem, .seq items => by
    rw [listing, mem_listItems iteration elem items]
    simp only [ReachesIn, Holds.list_iff]
    constructor
    · rintro ⟨item, member, held, holds, reached⟩
      exact ⟨held, ⟨item, member, holds⟩, reached⟩
    · rintro ⟨held, ⟨item, member, holds⟩, reached⟩
      exact ⟨item, member, held, holds, reached⟩
  | .map kind keyType valueType, .seq entries => by
    have arranged := (iteration.arrange_perm kind entries
      (schema.listEntries iteration keyType valueType entries)
      (Nat.le_of_eq (length_listEntries ..))).flatten
    rw [listing, arranged.mem_iff, mem_listEntries iteration keyType valueType entries]
    simp only [ReachesIn, Holds.map_iff]
    constructor
    · rintro ⟨key, value, member, ⟨held, holds, reached⟩ | ⟨held, holds, reached⟩⟩
      · exact ⟨held, ⟨key, value, member, .inl holds⟩, reached⟩
      · exact ⟨held, ⟨key, value, member, .inr holds⟩, reached⟩
    · rintro ⟨held, ⟨key, value, member, holds | holds⟩, reached⟩
      · exact ⟨key, value, member, .inl ⟨held, holds, reached⟩⟩
      · exact ⟨key, value, member, .inr ⟨held, holds, reached⟩⟩
  | .list _ _, .null | .list _ _, .bool _ | .list _ _, .int _ | .list _ _, .text _
  | .list _ _, .pair _ _ | .map _ _ _, .null | .map _ _ _, .bool _ | .map _ _ _, .int _
  | .map _ _ _, .text _ | .map _ _ _, .pair _ _ =>
    iff_of_false (by simp [listing]) (not_reachesIn (by intro held holds; cases holds))
  | .leaf _, value | .other _ _, value =>
    iff_of_false (by cases value <;> simp [listing])
      (not_reachesIn (by intro held holds; cases holds))

theorem mem_listFields (iteration : Iteration) : (types : List ResolvedType) →
    (fields : List Value) → (entity ∈ (schema.listFields iteration types fields).flatten ↔
      ∃ type value, (type, value) ∈ types.zip fields ∧ schema.ReachesIn type value entity)
  | type :: types, field :: fields => by
    rw [listFields, List.flatten_cons, List.mem_append, mem_listing _ type field,
      mem_listFields _ types fields]
    simp [or_and_right, exists_or]
  | [], fields => by cases fields <;> simp [listFields]
  | _ :: _, [] => by simp [listFields]

theorem mem_listItems (iteration : Iteration) (type : ResolvedType) : (items : List Value) →
    (entity ∈ (schema.listItems iteration type items).flatten ↔
      ∃ item ∈ items, schema.ReachesIn type item entity)
  | [] => by simp [listItems]
  | item :: rest => by
    rw [listItems, List.flatten_cons, List.mem_append, mem_listing _ type item,
      mem_listItems _ type rest]
    simp

theorem mem_listEntries (iteration : Iteration) (keyType valueType : ResolvedType) :
    (entries : List Value) →
    (entity ∈ (schema.listEntries iteration keyType valueType entries).flatten ↔
      ∃ key value, .pair key value ∈ entries ∧
        (schema.ReachesIn keyType key entity ∨ schema.ReachesIn valueType value entity))
  | [] => by simp [listEntries]
  | .pair key value :: rest => by
    rw [listEntries, List.flatten_cons, List.mem_append, List.mem_append,
      mem_listing _ keyType key, mem_listing _ valueType value,
      mem_listEntries _ keyType valueType rest]
    simp [or_and_right, exists_or]
  | .null :: rest | .bool _ :: rest | .int _ :: rest | .text _ :: rest | .seq _ :: rest => by
    simpa [listEntries] using mem_listEntries _ keyType valueType rest

end

/-- The entities that are stored with an entity, itself first. -/
def entities (schema : Schema) (iteration : Iteration) (entity : EntityValue) : List EntityValue :=
  schema.listing iteration (.entity entity.type) entity.value

theorem mem_entities {reached : EntityValue} (iteration : Iteration) :
    reached ∈ schema.entities iteration entity ↔ schema.Reaches entity reached := by
  rw [entities, mem_listing, reachesIn_entity]

end Schema

namespace Storing

theorem putEntity_eq (storing : Storing) (entity : EntityValue) :
    storing.putEntity entity =
      storing.writeAll (storing.schema.entities storing.iteration entity) :=
  put_eq storing _ _

theorem world_putEntity (storing : Storing) (entity : EntityValue) (world : World) :
    ((storing.putEntity entity).run world).2 = world.putAll storing.schema storing.writers
      (storing.schema.entities storing.iteration entity) := by
  rw [putEntity_eq]
  rfl

theorem mem_dirty (storing : Storing) (entity reached : EntityValue) (world : World) :
    reached ∈ ((storing.putEntity entity).run world).1 ↔
      storing.schema.Reaches entity reached := by
  rw [putEntity_eq, ← Schema.mem_entities storing.iteration]
  exact DirtySet.mem_merge.trans (by simp)

theorem nodup_dirty (storing : Storing) (entity : EntityValue) (world : World) :
    ((storing.putEntity entity).run world).1.Nodup := by
  rw [putEntity_eq]
  exact DirtySet.nodup_merge List.nodup_nil

/-- A put reports each entity that is reached from the one that is put, once, and no other. What
was stored before, where it is stored and how maps are iterated makes no difference. -/
theorem dirty_exact (storing : Storing) (entity : EntityValue) (world : World) :
    ((storing.putEntity entity).run world).1.Nodup ∧
    (∀ reached, reached ∈ ((storing.putEntity entity).run world).1 ↔
      storing.schema.Reaches entity reached) ∧
    ∀ (iteration : Iteration) (writers : List Nat) (before : World),
      (({ storing with iteration, writers }.putEntity entity).run before).1.Perm
        ((storing.putEntity entity).run world).1 := by
  refine ⟨nodup_dirty .., fun reached => mem_dirty .., ?_⟩
  intro iteration writers before
  refine (List.perm_ext_iff_of_nodup (nodup_dirty ..) (nodup_dirty ..)).mpr ?_
  intro reached
  rw [mem_dirty, mem_dirty]

end Storing
end EntityGen
