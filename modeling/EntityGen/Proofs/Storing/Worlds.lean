import EntityGen.Proofs.Storing.Reported

/-! What stores hold after entities were put: for each slot the last of them that belongs there,
and what was there before if there is none. -/
namespace EntityGen

theorem Store.put_put (store : Store) (slot : Slot) (cell : Cell) :
    (store.put slot cell).put slot cell = store.put slot cell := by
  funext other
  unfold Store.put
  split <;> rfl

namespace World

variable {schema : Schema} {stores : List Nat} {entity : EntityValue} {world : World}

def contents (world : World) (store : Nat) : Slot → Option Value :=
  fun slot => (world.get store slot).map Cell.value

theorem getElem?_putCell (world : World) (stores : List Nat) (slot : Slot) (cell : Cell)
    (store : Nat) : (world.putCell stores slot cell).stores[store]? =
      if store ∈ stores then world.stores[store]?.map fun s => s.put slot cell
      else world.stores[store]? := by
  unfold putCell
  dsimp only
  generalize world.stores = all
  induction stores generalizing all with
  | nil => rfl
  | cons first rest ih =>
    rw [List.foldl_cons, ih, List.getElem?_modify]
    by_cases here : first = store
    · subst first
      by_cases again : store ∈ rest
      · simp [again, Function.comp_def, Store.put_put]
      · simp [again]
    · simp [here, Ne.symm here, List.mem_cons]

theorem get_putCell (world : World) (stores : List Nat) (place : Slot) (cell : Cell)
    (store : Nat) (slot : Slot) : (world.putCell stores place cell).get store slot =
      if (store ∈ stores ∧ store < world.stores.length) ∧ place = slot then some cell
      else world.get store slot := by
  unfold get
  rw [getElem?_putCell]
  by_cases target : store ∈ stores
  · by_cases bound : store < world.stores.length
    · simp [target, bound, Store.put, eq_comm]
    · simp [target, bound]
  · simp [target]

theorem get_put (world : World) (schema : Schema) (stores : List Nat) (entity : EntityValue)
    (store : Nat) (slot : Slot) : (world.put schema stores entity).get store slot =
      if (store ∈ stores ∧ store < world.stores.length) ∧ schema.slot entity = slot then
        some ⟨world.next, entity.value⟩
      else world.get store slot :=
  get_putCell ..

@[simp] theorem length_putCell (world : World) (stores : List Nat) (slot : Slot) (cell : Cell) :
    (world.putCell stores slot cell).stores.length = world.stores.length := by
  unfold putCell
  dsimp only
  generalize world.stores = all
  induction stores generalizing all with
  | nil => rfl
  | cons first rest ih => simp [ih]

@[simp] theorem length_put (world : World) (schema : Schema) (stores : List Nat)
    (entity : EntityValue) :
    (world.put schema stores entity).stores.length = world.stores.length :=
  length_putCell ..

theorem putAll_cons (world : World) (schema : Schema) (stores : List Nat) (entity : EntityValue)
    (rest : List EntityValue) : world.putAll schema stores (entity :: rest) =
      (world.put schema stores entity).putAll schema stores rest := rfl

@[simp] theorem length_putAll (world : World) (schema : Schema) (stores : List Nat)
    (entities : List EntityValue) :
    (world.putAll schema stores entities).stores.length = world.stores.length := by
  induction entities generalizing world with
  | nil => rfl
  | cons first rest ih => rw [putAll_cons, ih, length_put]

/-- A store that is not written to keeps what it holds, and so does a slot that nothing is put into. -/
theorem get_putAll_of_apart {store : Nat} {slot : Slot} (entities : List EntityValue)
    (apart : store ∈ stores → ∀ entity ∈ entities, schema.slot entity ≠ slot) :
    (world.putAll schema stores entities).get store slot = world.get store slot := by
  induction entities generalizing world with
  | nil => rfl
  | cons first rest ih =>
    have elsewhere : ¬((store ∈ stores ∧ store < world.stores.length) ∧ schema.slot first = slot) :=
      fun target => apart target.1.1 first List.mem_cons_self target.2
    rw [putAll_cons, ih fun target entity member => apart target entity (.tail _ member), get_put,
      if_neg elsewhere]

end World

def Schema.lastAt (schema : Schema) (slot : Slot) (entities : List EntityValue) :
    Option EntityValue :=
  entities.reverse.find? fun entity => schema.slot entity = slot

namespace Schema

variable {schema : Schema} {slot : Slot} {entities : List EntityValue} {entity : EntityValue}

theorem lastAt_cons : schema.lastAt slot (entity :: entities) =
    (schema.lastAt slot entities).or (if schema.slot entity = slot then some entity else none) := by
  simp [lastAt, List.find?_append]

theorem lastAt_append {more : List EntityValue} : schema.lastAt slot (entities ++ more) =
    (schema.lastAt slot more).or (schema.lastAt slot entities) := by
  simp [lastAt, List.find?_append]

theorem mem_of_lastAt (last : schema.lastAt slot entities = some entity) :
    entity ∈ entities ∧ schema.slot entity = slot :=
  ⟨List.mem_reverse.mp (List.mem_of_find?_eq_some last), by simpa using List.find?_some last⟩

theorem lastAt_isSome (member : entity ∈ entities) :
    (schema.lastAt (schema.slot entity) entities).isSome := by
  simpa [lastAt, List.find?_isSome] using ⟨entity, member, rfl⟩

end Schema

namespace World

variable {schema : Schema} {stores : List Nat} {world : World} {store : Nat}

variable (schema) in
/-- The last entity put into a slot is what a store holds there. -/
theorem value_putAll (target : store ∈ stores) (bound : store < world.stores.length)
    (entities : List EntityValue) (slot : Slot) :
    ((world.putAll schema stores entities).get store slot).map Cell.value =
      ((schema.lastAt slot entities).map EntityValue.value).or
        ((world.get store slot).map Cell.value) := by
  induction entities generalizing world with
  | nil => rfl
  | cons first rest ih =>
    rw [putAll_cons, ih (by simpa using bound), get_put, Schema.lastAt_cons]
    by_cases here : schema.slot first = slot
    · cases schema.lastAt slot rest <;> simp [target, bound, here]
    · simp [here]

end World

namespace Storing

variable {storing : Storing} {world : World} {store : Nat} {entity : EntityValue}

variable (entity) in
/-- A writer holds for each slot the last reached entity that belongs there, or what it held. -/
theorem value_putEntity (target : store ∈ storing.writers) (bound : store < world.stores.length)
    (slot : Slot) : (((storing.putEntity entity).run world).2.get store slot).map Cell.value =
      ((storing.schema.lastAt slot (storing.schema.entities storing.iteration entity)).map
        EntityValue.value).or ((world.get store slot).map Cell.value) := by
  rw [world_putEntity, World.value_putAll storing.schema target bound]

/-- Where the entities are that a put has reached. -/
theorem get_of_reaches (target : store ∈ storing.writers) (bound : store < world.stores.length)
    (reaches : storing.schema.Reaches entity reached) :
    ∃ cell last, ((storing.putEntity entity).run world).2.get store
        (storing.schema.slot reached) = some cell ∧ cell.value = last.value ∧
      storing.schema.Reaches entity last ∧
      storing.schema.slot last = storing.schema.slot reached := by
  have value := value_putEntity entity target bound (storing.schema.slot reached)
  obtain ⟨last, found⟩ := Option.isSome_iff_exists.mp
    (Schema.lastAt_isSome ((Schema.mem_entities storing.iteration).mpr reaches))
  obtain ⟨member, place⟩ := Schema.mem_of_lastAt found
  rw [found, Option.map_some, Option.some_or, Option.map_eq_some_iff] at value
  obtain ⟨cell, stored, same⟩ := value
  exact ⟨cell, last, stored, same, (Schema.mem_entities storing.iteration).mp member, place⟩

/-- What is stored after a put is reached from the entity or was stored before. -/
theorem origin_of_get (target : store ∈ storing.writers) (bound : store < world.stores.length)
    (stored : ((storing.putEntity entity).run world).2.get store slot = some cell) :
    (storing.schema.Reaches entity ⟨slot.type, cell.value⟩ ∧
      storing.schema.slot ⟨slot.type, cell.value⟩ = slot) ∨
      ∃ old, world.get store slot = some old ∧ old.value = cell.value := by
  have value := value_putEntity entity target bound slot
  rw [stored, Option.map_some] at value
  cases found : storing.schema.lastAt slot (storing.schema.entities storing.iteration entity) with
  | none =>
    rw [found, Option.map_none, Option.none_or] at value
    exact .inr (Option.map_eq_some_iff.mp value.symm)
  | some last =>
    rw [found, Option.map_some, Option.some_or] at value
    obtain ⟨member, rfl⟩ := Schema.mem_of_lastAt found
    rw [Option.some.inj value]
    exact .inl ⟨(Schema.mem_entities storing.iteration).mp member, rfl⟩

/-- A put takes nothing away. -/
theorem get_isSome_of_get (target : store ∈ storing.writers) (bound : store < world.stores.length)
    (stored : (world.get store slot).isSome) :
    (((storing.putEntity entity).run world).2.get store slot).isSome := by
  obtain ⟨old, stored⟩ := Option.isSome_iff_exists.mp stored
  have value := value_putEntity entity target bound slot
  rw [stored, Option.map_some, Option.or_some] at value
  obtain ⟨cell, after, -⟩ := Option.map_eq_some_iff.mp value
  exact Option.isSome_of_eq_some after

end Storing

namespace World

variable {schema : Schema} {stores : List Nat} {world : World}

def Every (world : World) (property : Slot → Value → Prop) : Prop :=
  ∀ store slot cell, world.get store slot = some cell → property slot cell.value

theorem every_putCell {property : Slot → Value → Prop} (every : world.Every property)
    (stores : List Nat) (place : Slot) (cell : Cell) (new : property place cell.value) :
    (world.putCell stores place cell).Every property := by
  intro store slot found stored
  rw [get_putCell] at stored
  split at stored
  next here =>
    obtain rfl := Option.some.inj stored
    exact here.2 ▸ new
  next => exact every store slot found stored

theorem every_put {property : Slot → Value → Prop} (every : world.Every property)
    (entity : EntityValue) (new : property (schema.slot entity) entity.value) :
    (world.put schema stores entity).Every property :=
  every_putCell every _ _ ⟨world.next, entity.value⟩ new

theorem every_putAll {property : Slot → Value → Prop} (every : world.Every property)
    (entities : List EntityValue)
    (new : ∀ entity ∈ entities, property (schema.slot entity) entity.value) :
    (world.putAll schema stores entities).Every property := by
  induction entities generalizing world with
  | nil => exact every
  | cons first rest ih =>
    rw [putAll_cons]
    exact ih (every_put every first (new first List.mem_cons_self))
      fun entity member => new entity (List.mem_cons_of_mem _ member)

end World

namespace Repository

theorem read_single (world : World) (store : Nat) (writers : List Nat) (slot : Slot) :
    (Repository.mk [store] writers).read world slot = world.get store slot := by
  simp [read]

theorem read_some {repository : Repository} {world : World}
    (hit : repository.read world slot = some cell) :
    ∃ store ∈ repository.readers, world.get store slot = some cell :=
  List.exists_of_findSome?_eq_some hit

end Repository
end EntityGen
