import EntityGen.Proofs.Storing.Worlds

/-! Whether an entity that is put is what is stored for it. It is written before all that is nested
in it, so that another version of it is the one that stays, if there is one at any depth. -/
namespace EntityGen

namespace Schema

variable {schema : Schema} {entity reached : EntityValue}

theorem Reaches.sizeOf_le (reaches : schema.Reaches entity reached) :
    sizeOf reached.value ≤ sizeOf entity.value := by
  induction reaches with
  | refl => exact Nat.le_refl _
  | tail _ refers ih => exact Nat.le_trans (Nat.le_of_lt refers.sizeOf_lt) ih

/-- The entity comes first in the listing of what is stored with it, and all others are smaller. -/
theorem entities_eq_cons (schema : Schema) (iteration : Iteration) (entity : EntityValue) :
    ∃ nested, schema.entities iteration entity = entity :: nested ∧
      ∀ inner ∈ nested, sizeOf inner.value < sizeOf entity.value := by
  obtain ⟨type, value⟩ := entity
  cases value with
  | seq fields =>
    refine ⟨(schema.listFields iteration (schema.properties type) fields).flatten, ?_, ?_⟩
    · rw [entities, listing]
    · intro inner member
      obtain ⟨property, value, inside, held, holds, reaches⟩ :=
        (mem_listFields iteration (schema.properties type) fields).mp member
      have refers : schema.Refers ⟨type, .seq fields⟩ held :=
        refers_iff.mpr ⟨fields, rfl, property, value, inside, holds⟩
      exact Nat.lt_of_le_of_lt (Reaches.sizeOf_le reaches) refers.sizeOf_lt
  | _ => exact ⟨[], by simp [entities, listing], by simp⟩

end Schema

namespace Storing

variable {storing : Storing} {store : Nat}

/-- After a put the store holds the last version of the entity among all that is reached from it.
This is the entity itself if and only if no other version of it is reached. -/
theorem own_version_stored_iff (entity : EntityValue) (world : World)
    (target : store ∈ storing.writers) (bound : store < world.stores.length) :
    let slot := storing.schema.slot entity
    let stored := (((storing.putEntity entity).run world).2.get store slot).map Cell.value
    stored = (storing.schema.lastAt slot
        (storing.schema.entities storing.iteration entity)).map EntityValue.value ∧
      (stored = some entity.value ↔ ∀ reached, storing.schema.Reaches entity reached →
        storing.schema.slot reached = slot → reached = entity) := by
  intro slot stored
  obtain ⟨nested, listing, smaller⟩ := storing.schema.entities_eq_cons storing.iteration entity
  have listed : ∀ reached, storing.schema.Reaches entity reached ↔
      reached = entity ∨ reached ∈ nested := by
    intro reached
    rw [← Schema.mem_entities storing.iteration, listing, List.mem_cons]
  -- The last version is the last of the nested ones, and the entity if there is none.
  have last : storing.schema.lastAt slot (storing.schema.entities storing.iteration entity) =
      (storing.schema.lastAt slot nested).or (some entity) := by
    rw [listing, Schema.lastAt_cons, if_pos rfl]
  have value : stored = ((storing.schema.lastAt slot nested).or (some entity)).map
      EntityValue.value := by
    have written := value_putEntity entity target bound slot
    rw [last] at written
    refine written.trans ?_
    cases storing.schema.lastAt slot nested <;> rfl
  refine ⟨by rw [value, last], ?_⟩
  rw [value]
  cases found : storing.schema.lastAt slot nested with
  | none =>
    refine iff_of_true rfl fun reached reaches same => ?_
    rcases (listed reached).mp reaches with self | member
    · exact self
    · have present : (storing.schema.lastAt (storing.schema.slot reached) nested).isSome :=
        Schema.lastAt_isSome member
      rw [same, found] at present
      cases present
  | some other =>
    obtain ⟨member, place⟩ := Schema.mem_of_lastAt found
    have apart : other.value ≠ entity.value := by
      intro same
      have less := smaller other member
      rw [same] at less
      exact Nat.lt_irrefl _ less
    refine iff_of_false (by simpa using apart) fun all => ?_
    have same := all other ((listed other).mpr (.inr member)) place
    exact apart (congrArg EntityValue.value same)

end Storing

/-! Persons are members of teams, and each knows the teams that it is in. -/
namespace Club

def person : EntityType := ⟨[], ⟨"Person", false⟩⟩

def team : EntityType := ⟨[], ⟨"Team", false⟩⟩

def schema : Schema :=
  [⟨person, [.leaf .inferred, .list .vec (.entity team)], ⟨0, by decide⟩⟩,
    ⟨team, [.leaf .inferred, .list .vecDeque (.entity person)], ⟨0, by decide⟩⟩]

/-- A person is put who is in a team, of which an older version of the person is a member. -/
def joined : EntityValue :=
  ⟨person, .seq [.text "ada", .seq [.seq [.int 1, .seq [.seq [.text "ada", .seq []]]]]]⟩

/-- What is stored afterwards is the older version. -/
theorem older_version_stored :
    let storing : Storing := ⟨schema, Iteration.sorted, [0]⟩
    let after := ((storing.putEntity joined).run (World.ofCount 1)).2
    (after.get 0 (schema.slot joined)).map Cell.value = some (.seq [.text "ada", .seq []]) ∧
      (after.get 0 (schema.slot joined)).map Cell.value ≠ some joined.value := by
  decide

/-- A person who is in a team of others is stored as it was put. -/
theorem joined_others_stored :
    let storing : Storing := ⟨schema, Iteration.sorted, [0]⟩
    let alone : EntityValue :=
      ⟨person, .seq [.text "ada", .seq [.seq [.int 1, .seq [.seq [.text "bea", .seq []]]]]]⟩
    let after := ((storing.putEntity alone).run (World.ofCount 1)).2
    (after.get 0 (schema.slot alone)).map Cell.value = some alone.value := by
  intro storing alone after
  have exact := (storing.own_version_stored_iff alone (World.ofCount 1)
    (by decide : 0 ∈ storing.writers) (by decide)).2
  refine exact.mpr fun reached reaches same => ?_
  have listed := (Schema.mem_entities storing.iteration).mpr reaches
  have only : ∀ entity ∈ storing.schema.entities storing.iteration alone,
      storing.schema.slot entity = storing.schema.slot alone → entity = alone := by decide
  exact only reached listed same

end Club
end EntityGen
