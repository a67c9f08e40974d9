import EntityGen.Proofs.Entity.Sound
import EntityGen.Proofs.Storing.Worlds

/-! The worlds that writes lead to. Stores are written to directly and through repositories, of
which there may be several with stores in common; whatever is written is an entity of the schema. -/
namespace EntityGen.World

inductive Reachable (schema : Schema) : World → Prop where
  | ofCount (count : Nat) : Reachable schema (ofCount count)
  | build (readers writers : List Nat) : Reachable schema world →
      Reachable schema (Repository.build world readers writers).1
  /-- A shared value is put into stores, be it a new one or not. -/
  | store (targets : List Nat) : Reachable schema world →
      Typed schema (.entity type) cell.value →
      Reachable schema (world.putCell targets (schema.slot ⟨type, cell.value⟩) cell)
  /-- An entity is put into a repository. -/
  | put (repository : Repository) (iteration : Iteration) (entity : EntityValue) :
      Reachable schema world →
      Typed schema (.entity entity.type) entity.value →
      Reachable schema (((repository.storing schema iteration).putEntity entity).run world).2

variable {schema : Schema} {world : World}

theorem get_ofCount (count store : Nat) (slot : Slot) : (ofCount count).get store slot = none := by
  by_cases bound : store < count <;> simp [ofCount, get, bound, Store.empty]

/-- A new store holds nothing. -/
theorem get_build (world : World) (readers writers : List Nat) (store : Nat) (slot : Slot) :
    (Repository.build world readers writers).1.get store slot = world.get store slot := by
  unfold Repository.build
  split
  next =>
    unfold get
    dsimp only
    rw [List.getElem?_append]
    split
    next => rfl
    next beyond =>
      rw [List.getElem?_eq_none (Nat.le_of_not_lt beyond)]
      cases store - world.stores.length <;> simp [Store.empty]
  next => rfl

/-- What is stored is an entity of its type, in its own slot. -/
theorem Reachable.every (reachable : Reachable schema world) : world.Every fun slot value =>
    schema.slot ⟨slot.type, value⟩ = slot ∧ Typed schema (.entity slot.type) value := by
  induction reachable with
  | ofCount count =>
    intro store slot cell stored
    rw [get_ofCount] at stored
    cases stored
  | build readers writers _ ih =>
    intro store slot cell stored
    rw [get_build] at stored
    exact ih store slot cell stored
  | store targets _ typed ih => exact every_putCell ih _ _ _ ⟨rfl, typed⟩
  | put repository iteration entity _ typed ih =>
    rw [Storing.world_putEntity]
    refine every_putAll ih _ fun reached member => ?_
    have reaches := (Schema.mem_entities iteration).mp member
    exact ⟨rfl, typed.ofReaches reaches⟩

end EntityGen.World
