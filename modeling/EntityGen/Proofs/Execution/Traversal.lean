import EntityGen.Proofs.Execution.Listings
import EntityGen.Proofs.Execution.Putting
import EntityGen.Proofs.Execution.Stores
import EntityGen.Proofs.Storing.Worlds

/-! What the methods that store entities do in a repository with stores in memory, all the calls
between them included: one write after the other, in some order in which maps can be iterated. -/
namespace EntityGen

namespace Schema

variable {schema : Schema} {own : EntityValue} {iteration : Iteration}

/-- An entity is gone through before all that it holds, each of it in an order of its own. -/
theorem lists_cons {listings : List (List EntityValue)}
    (typed : Typed schema (.entity own.type) own.value)
    (each : schema.ListsEach (schema.held own iteration) listings) :
    schema.Lists (.entity own.type) own.value (own :: listings.flatten) := by
  have joins : ∀ datum ∈ schema.data own iteration, schema.Joins datum :=
    fun datum member => joins_of_typed (typed_of_mem_data typed member) datum.iteration
  obtain ⟨type, value⟩ := own
  cases typed with
  | @entity _ fields =>
    obtain ⟨order, listed⟩ := exists_listFields joins each
    exact ⟨order, by rw [listing, listed]⟩

end Schema

/-- A program stores an entity if in any world it does what the traversal does in some order, and
reports what the traversal writes. -/
def Stores (schema : Schema) (writers : List Nat) (program : StateM World DirtySet)
    (entity : EntityValue) : Prop :=
  ∀ world, ∃ listing, schema.Lists (.entity entity.type) entity.value listing ∧
    program.run world =
      (DirtySet.merge schema [] listing, world.putAll schema writers listing)

namespace Storage

variable {storage : Storage World} {schema : Schema} {writers : List Nat}

/-- Puts that store each entity, one after the other. -/
theorem run_putAll {held : List EntityValue}
    (each : ∀ inner ∈ held,
      Stores schema writers (storage.put (Naming.putMethod inner.type.name) inner) inner)
    (set : DirtySet) (world : World) :
    ∃ listings, schema.ListsEach held listings ∧
      (storage.putAll schema set held).run world = (DirtySet.merge schema set listings.flatten,
        world.putAll schema writers listings.flatten) := by
  induction held generalizing set world with
  | nil => exact ⟨[], .nil, rfl⟩
  | cons first rest ih =>
    obtain ⟨here, listed, done⟩ := each first List.mem_cons_self world
    obtain ⟨later, others, ends⟩ := ih (fun inner member => each inner (.tail _ member))
      (DirtySet.merge schema set here) (world.putAll schema writers here)
    refine ⟨here :: later, .cons listed others, ?_⟩
    have step : (storage.putAll schema set (first :: rest)).run world =
        let result := (storage.put (Naming.putMethod first.type.name) first).run world
        (storage.putAll schema (DirtySet.merge schema set result.1) rest).run result.2 := rfl
    have worlds : world.putAll schema writers (here ++ later.flatten) =
        (world.putAll schema writers here).putAll schema writers later.flatten := by
      simp [World.putAll]
    rw [step, done, List.flatten_cons, DirtySet.merge_append, worlds, ← ends]
    simp only [DirtySet.merge_merge_nil]

end Storage

namespace EntityCalls

/-- A call for an entity stores it, and gives what it reports. -/
def Store (calls : EntityCalls World) (schema : Schema) (writers : List Nat) (entity : Entity)
    (value : Value) : Prop :=
  ∀ world, ∃ listing, schema.Lists (.entity entity.type) value listing ∧
    (calls entity (.owned (.entity entity.type) value)).run world =
      (some (.dirtySet (DirtySet.merge schema [] listing)), world.putAll schema writers listing)

/-- What an operand reports, if it is a dirty set. -/
def reported : Option Operand → DirtySet
  | some (.dirtySet set) => set
  | _ => []

theorem Store.eq {calls : EntityCalls World} {schema : Schema} {writers : List Nat}
    {entity : Entity} {value : Value} (stores : calls.Store schema writers entity value) :
    calls entity (.owned (.entity entity.type) value) = (do
      return some (.dirtySet
        (reported (← calls entity (.owned (.entity entity.type) value))))) := by
  funext world
  obtain ⟨listing, -, done⟩ := stores world
  refine Eq.trans done ?_
  change _ = (fun result => (some (Operand.dirtySet (reported result.1)), result.2))
    ((calls entity _).run world)
  rw [done]
  rfl

end EntityCalls

namespace Host

variable {entity : Entity} {value : Value}

theorem owner?_eq {σ : Type} {host : Host σ} {naming : Ident → Ident}
    (apart : Entity.Apart host.types)
    (inj : ∀ x y, naming x = naming y → Naming.stem x = Naming.stem y)
    (member : entity ∈ host.types) : host.owner? naming (naming entity.name) = some entity := by
  rw [owner?, filter_key_eq_singleton (apart.nodup_map inj) member]

/-- The storage of a repository whose puts are given. -/
def storage (host : Host World) (repository : Repository) (calls : EntityCalls World) :
    Storage World where
  write _ type cell := modify fun world =>
    world.putCell repository.writers (host.schema.slot ⟨type, cell.value⟩) cell
  put name held :=
    match host.owner? Naming.putMethod name with
    | some entity => do
      return EntityCalls.reported (← calls entity (.owned (.entity held.type) held.value))
    | none => return []

variable {runtime : Path} {entities : List Entity} {order : Nat → Iteration}
  {repository : Repository} {calls : EntityCalls World}

/-- A call that stores an entity serves as the put that is called for it. -/
theorem serves_of_store (apart : Entity.Apart entities) (member : entity ∈ entities)
    {schema : Schema} {writers : List Nat} {held : EntityValue} (sameType : entity.type = held.type)
    (stores : calls.Store schema writers entity held.value) :
    let host := ofRepository runtime entities order repository
    let storage := host.storage repository calls
    Generated.Put.Serves (host.calling Naming.putMethod calls) storage held ∧
      Stores schema writers (storage.put (Naming.putMethod held.type.name) held) held := by
  obtain ⟨type, value⟩ := held
  subst sameType
  intro host storage
  have owner : host.owner? Naming.putMethod (Naming.putMethod entity.type.name) = some entity :=
    owner?_eq apart (fun _ _ => Naming.putMethod_inj.mp) member
  have call := stores.eq
  constructor
  · simp only [Generated.Put.Serves, calling, storage, Host.storage, owner]
    conv_lhs => rw [call]
    simp
  · intro world
    obtain ⟨listing, listed, done⟩ := stores world
    refine ⟨listing, listed, ?_⟩
    simp only [storage, Host.storage, owner, StateT.run_bind, done]
    rfl

theorem writes_calling (side : StoreSide runtime entities)
    (storable : (ofTypes runtime entities order).Storable entity value) :
    let host := ofRepository runtime entities order repository
    Generated.Put.Writes (host.calling Naming.putMethod calls) (host.storage repository calls)
      (Naming.writeMethod entity.name) ⟨entity.type, value⟩ := by
  intro host tag
  have noOwner : host.owner? Naming.putMethod (Naming.writeMethod entity.name) = none := by
    have none : host.types.filter (fun other =>
        Naming.putMethod other.name == Naming.writeMethod entity.name) = [] :=
      List.filter_eq_nil_iff.mpr fun other _ same =>
        Naming.ne_of_initial (by simp) (beq_iff_eq.mp same)
    rw [owner?, none]
  have storable : (ofTypes runtime entities order).Storable entity (Cell.mk tag value).value :=
    storable
  simp only [calling, storage, noOwner]
  exact storeMethods_write side storable repository

/-- A put stores an entity if the puts that it calls store what the entity holds. -/
theorem store_putOnce (side : StoreSide runtime entities)
    (storable : (ofTypes runtime entities order).Storable entity value)
    (inner : ∀ held, Schema.Refers (entities.map Entity.schema) ⟨entity.type, value⟩ held →
      ∀ other ∈ entities, other.type = held.type →
        calls.Store (entities.map Entity.schema) repository.writers other held.value) :
    ((ofRepository runtime entities order repository).putOnce calls).Store
      (entities.map Entity.schema) repository.writers entity value := by
  set host := ofRepository runtime entities order repository
  have typed : Typed (entities.map Entity.schema) (.entity entity.type) value := storable.typed
  have stores : ∀ held, Schema.Refers (entities.map Entity.schema) ⟨entity.type, value⟩ held →
      Generated.Put.Serves (host.calling Naming.putMethod calls) (host.storage repository calls)
        held ∧
      Stores (entities.map Entity.schema) repository.writers
        ((host.storage repository calls).put (Naming.putMethod held.type.name) held) held := by
    intro held refers
    have known := (typed.ofRefers refers).known
    obtain ⟨other, inside, isOther⟩ := (ofTypes runtime entities order).entity?_of_known known
    have sameType := List.find?_some isOther
    rw [beq_iff_eq] at sameType
    exact serves_of_store side.apart inside sameType (inner held refers other inside sameType)
  have known : (host.calling Naming.putMethod calls).entity? entity.type = some entity :=
    storable.found
  have writes : Generated.Put.Writes (host.calling Naming.putMethod calls)
      (host.storage repository calls) (Naming.writeMethod entity.name) ⟨entity.type, value⟩ :=
    writes_calling side storable
  have runs := Generated.Put.run_method known storable.distinct typed writes
    fun tag held among => (stores held ((Schema.mem_held_iff typed _).mp among)).1
  intro world
  -- The entity is written under the next tag, and then what it holds is put into that world.
  let own : EntityValue := ⟨entity.type, value⟩
  have held : ∀ inner ∈ Schema.held (entities.map Entity.schema) own (order world.next), _ :=
    fun inner among => (stores inner ((Schema.mem_held_iff typed _).mp among)).2
  obtain ⟨listings, listed, done⟩ := Storage.run_putAll held [own]
    (world.put (entities.map Entity.schema) repository.writers own)
  refine ⟨own :: listings.flatten, Schema.lists_cons typed listed, ?_⟩
  refine (congrArg (fun program => program.run world) runs).trans ?_
  exact congrArg (fun result => (some (Operand.dirtySet result.1), result.2)) done

/-- A put stores an entity if calls may nest as deep as its value does. -/
theorem store_putWithin (side : StoreSide runtime entities)
    (found : ∀ other ∈ entities, (ofTypes runtime entities order).entity? other.type = some other)
    (distinct : ∀ other ∈ entities, other.Distinct) (cut : EntityCalls World) {depth : Nat}
    (member : entity ∈ entities)
    (typed : Typed (entities.map Entity.schema) (.entity entity.type) value)
    (deep : sizeOf value ≤ depth) :
    ((ofRepository runtime entities order repository).putWithin cut depth).Store
      (entities.map Entity.schema) repository.writers entity value := by
  induction depth generalizing entity value with
  | zero =>
    have positive : 0 < sizeOf value := by cases value <;> simp
    omega
  | succ depth ih =>
    refine store_putOnce side ⟨member, found entity member, distinct entity member, typed⟩ ?_
    intro held refers other inside sameType
    refine ih inside (sameType ▸ typed.ofRefers refers) ?_
    have smaller := refers.sizeOf_lt
    exact Nat.le_of_lt_succ (Nat.lt_of_lt_of_le smaller deep)

/-- What becomes of the stores of a repository when an entity is put is what the traversal makes of
them, in some order in which maps can be iterated; and the answer is what the traversal reports.
Calls of methods may nest as deep as the value, and do not nest deeper. -/
theorem putWithin_eq {specs : List Spec}
    (side : StoreSide runtime (Resolution.ofSpecs specs).entities)
    (distinct : ∀ other ∈ (Resolution.ofSpecs specs).entities, other.Distinct)
    (member : entity ∈ (Resolution.ofSpecs specs).entities)
    (typed : Typed (Resolution.ofSpecs specs).schema (.entity entity.type) value)
    (order : Nat → Iteration) (repository : Repository) (cut : EntityCalls World) {depth : Nat}
    (deep : sizeOf value ≤ depth) (world : World) :
    let host := ofRepository runtime (Resolution.ofSpecs specs).entities order repository
    ∃ iteration,
      let storing := repository.storing (Resolution.ofSpecs specs).schema iteration
      let stored := (storing.putEntity ⟨entity.type, value⟩).run world
      (host.putWithin cut depth entity (.owned (.entity entity.type) value)).run world =
        (some (.dirtySet stored.1), stored.2) := by
  intro host
  have found : ∀ other ∈ host.types, host.entity? other.type = some other :=
    fun other inside => entity?_of_mem rfl inside
  have stores : (host.putWithin cut depth).Store host.schema repository.writers entity value :=
    store_putWithin side found distinct cut member typed deep
  obtain ⟨_, ⟨iteration, rfl⟩, done⟩ := stores world
  refine ⟨iteration, ?_⟩
  simp only [Storing.putEntity_eq]
  exact done

end Host

open Library in
/-- What is reported when a book is put whose authors are stored with it. -/
example :
    let host := Host.ofRepository ⟨false, []⟩ (Resolution.ofSpecs specs).entities
      (fun _ => Iteration.sorted) ⟨[0], [0]⟩
    let value := bookValue 1 (authorValue 7 "ada") [(.int 1, [authorValue 8 "bea"])]
    EntityCalls.reported ((host.putWithin (fun _ _ => pure none) 2 book
        (.owned (.entity book.type) value)).run (World.ofCount 1)).1 =
      [⟨book.type, value⟩, ⟨author.type, authorValue 7 "ada"⟩,
        ⟨author.type, authorValue 8 "bea"⟩] := by
  decide +kernel

end EntityGen
