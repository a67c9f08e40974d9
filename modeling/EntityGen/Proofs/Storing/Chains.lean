import EntityGen.Proofs.Reading.Canonical

/-! Repositories over several stores. A read asks the readers one after the other, and each write of
a put reaches every writer, so that writers that hold the same never come apart; a store that is no
writer is left as it is. A store may stand more than once in either list, and in both. -/
namespace EntityGen

namespace World

variable {schema : Schema} {stores : List Nat} {world : World}

/-- The shared values that entities are put as are the same ones in all the stores. -/
theorem exists_written (schema : Schema) (stores : List Nat) (entities : List EntityValue)
    (world : World) : ∃ written : Slot → Option Cell, ∀ store ∈ stores,
      store < world.stores.length → ∀ slot, (world.putAll schema stores entities).get store slot =
        (written slot).or (world.get store slot) := by
  induction entities generalizing world with
  | nil => exact ⟨fun _ => none, fun store _ _ slot => rfl⟩
  | cons first rest ih =>
    obtain ⟨later, same⟩ := ih (world.put schema stores first)
    let written : Slot → Option Cell := fun slot =>
      if schema.slot first = slot then some ⟨world.next, first.value⟩ else none
    refine ⟨fun slot => (later slot).or (written slot), fun store target bound slot => ?_⟩
    have single : (world.put schema stores first).get store slot =
        (written slot).or (world.get store slot) := by
      rw [get_put]
      by_cases here : schema.slot first = slot <;> simp [written, target, bound, here]
    rw [putAll_cons, same store target (by rwa [length_put]) slot, single, Option.or_assoc]

end World

namespace Repository

/-- What is done with stores: an entity is put into the repository, or a shared value is put
directly into one of the stores. -/
inductive Action where
  | put (order : Iteration) (entity : EntityValue)
  | store (target : Nat) (type : EntityType) (cell : Cell)

/-- The world after an action. -/
def act (repository : Repository) (schema : Schema) (world : World) : Action → World
  | .put order entity => (((repository.storing schema order).putEntity entity).run world).2
  | .store target type cell => world.putCell [target] (schema.slot ⟨type, cell.value⟩) cell

def acts (repository : Repository) (schema : Schema) (actions : List Action) (world : World) : World :=
  actions.foldl (repository.act schema) world

/-- The entities that an action writes to a store. -/
def received (repository : Repository) (schema : Schema) (store : Nat) : Action → List EntityValue
  | .put order entity => if store ∈ repository.writers then schema.entities order entity else []
  | .store target type cell => if target = store then [⟨type, cell.value⟩] else []

variable {repository : Repository} {schema : Schema} {world : World} {store : Nat} {slot : Slot}

@[simp] theorem length_act (action : Action) :
    (repository.act schema world action).stores.length = world.stores.length := by
  cases action with
  | put order entity => rw [act, Storing.world_putEntity, World.length_putAll]
  | store target type cell => exact World.length_putCell ..

@[simp] theorem length_acts (actions : List Action) :
    (repository.acts schema actions world).stores.length = world.stores.length := by
  induction actions generalizing world with
  | nil => rfl
  | cons first rest ih => exact ih.trans (length_act first)

theorem contents_act (bound : store < world.stores.length) (action : Action) :
    (repository.act schema world action).contents store slot =
      ((schema.lastAt slot (repository.received schema store action)).map EntityValue.value).or
        (world.contents store slot) := by
  cases action with
  | put order entity =>
    rw [act, Storing.world_putEntity, received]
    split
    next target => exact World.value_putAll schema target bound _ slot
    next apart =>
      exact congrArg (Option.map Cell.value)
        (World.get_putAll_of_apart _ fun target => absurd target apart)
  | store target type cell =>
    rw [act, received, World.contents, World.get_putCell]
    by_cases same : target = store
    · subst same
      by_cases here : schema.slot ⟨type, cell.value⟩ = slot <;>
        simp [bound, here, Schema.lastAt, World.contents]
    · simp [same, Ne.symm same, Schema.lastAt, World.contents]

/-- A store holds the last of the entities that it has received for a slot, or what it held before
if there is none. -/
theorem contents_acts (bound : store < world.stores.length) (actions : List Action) :
    (repository.acts schema actions world).contents store slot =
      ((schema.lastAt slot (actions.flatMap (repository.received schema store))).map
        EntityValue.value).or (world.contents store slot) := by
  induction actions generalizing world with
  | nil => rfl
  | cons first rest ih =>
    have start : repository.acts schema (first :: rest) world =
        repository.acts schema rest (repository.act schema world first) := rfl
    rw [start, ih (by rwa [length_act]), contents_act bound, List.flatMap_cons,
      Schema.lastAt_append, Option.map_or, Option.or_assoc]

/-- Writers that hold the same before puts into a repository hold the same afterwards. By induction
on the puts, of which each writes the same shared values to all writers. -/
theorem alike_run {α : Type} (view : Cell → α) (puts : List (Iteration × EntityValue))
    (inWorld : ∀ writer ∈ repository.writers, writer < world.stores.length)
    (first : a ∈ repository.writers) (second : b ∈ repository.writers)
    (alike : ∀ slot, (world.get a slot).map view = (world.get b slot).map view) (slot : Slot) :
    ((repository.run schema puts world).get a slot).map view =
      ((repository.run schema puts world).get b slot).map view := by
  induction puts generalizing world with
  | nil => exact alike slot
  | cons put rest ih =>
    have start : repository.run schema (put :: rest) world = repository.run schema rest
        (world.putAll schema repository.writers (schema.entities put.1 put.2)) :=
      congrArg (repository.run schema rest) (Storing.world_putEntity _ put.2 world)
    rw [start]
    refine ih (fun writer member => ?_) fun slot => ?_
    · rw [World.length_putAll]
      exact inWorld writer member
    · obtain ⟨written, same⟩ := World.exists_written schema repository.writers
        (schema.entities put.1 put.2) world
      rw [same a first (inWorld a first), same b second (inWorld b second), Option.map_or,
        Option.map_or, alike slot]

theorem read_congr {after : World} (repository : Repository)
    (same : ∀ store ∈ repository.readers, after.get store slot = world.get store slot) :
    repository.read after slot = repository.read world slot := by
  rw [read, read, ← List.head?_filterMap, ← List.head?_filterMap, List.filterMap_congr same]

/-- A put into stores that are not read from changes nothing of what reads go by. -/
theorem reading_put (apart : ∀ store ∈ repository.readers, store ∉ repository.writers)
    (order : Iteration) (entity : EntityValue) (iteration : Nat → Iteration) :
    repository.reading schema iteration
        (((repository.storing schema order).putEntity entity).run world).2 =
      repository.reading schema iteration world := by
  have stored : repository.read (((repository.storing schema order).putEntity entity).run world).2 =
      repository.read world := by
    funext slot
    refine repository.read_congr fun store member => ?_
    rw [Storing.world_putEntity]
    exact World.get_putAll_of_apart _ fun target => absurd target (apart store member)
  exact congrArg (Reading.mk schema iteration) stored

section Build

variable {readers writers : List Nat}

theorem readers_build : (build world readers writers).2.readers =
    if readers = [] then [world.stores.length] else readers := by
  cases readers <;> cases writers <;> simp [build]

theorem writers_build : (build world readers writers).2.writers =
    if writers = [] then [world.stores.length] else writers := by
  cases readers <;> cases writers <;> simp [build]

theorem stores_build : (build world readers writers).1.stores =
    world.stores ++ if readers = [] ∨ writers = [] then [Store.empty] else [] := by
  cases readers <;> cases writers <;> simp [build]

theorem writers_lt_build (readers : List Nat) (inWorld : ∀ writer ∈ writers, writer < world.stores.length) :
    ∀ writer ∈ (build world readers writers).2.writers,
      writer < (build world readers writers).1.stores.length := by
  intro writer member
  rw [writers_build] at member
  rw [stores_build]
  by_cases none : writers = []
  · obtain rfl : writer = world.stores.length := by simpa [none] using member
    simp [none]
  · have bound := inWorld writer (by simpa [none] using member)
    rw [List.length_append]
    omega

/-- A repository reads what it writes if and only if a given store is both a reader and a writer, or
the same new store stands in for both lists. -/
theorem apart_build_iff (readersInWorld : ∀ reader ∈ readers, reader < world.stores.length)
    (writersInWorld : ∀ writer ∈ writers, writer < world.stores.length) :
    (∀ store ∈ (build world readers writers).2.readers,
        store ∉ (build world readers writers).2.writers) ↔
      (∀ store ∈ readers, store ∉ writers) ∧ (readers ≠ [] ∨ writers ≠ []) := by
  rw [readers_build, writers_build]
  by_cases noReaders : readers = [] <;> by_cases noWriters : writers = []
  · simp [noReaders, noWriters]
  · have fresh : world.stores.length ∉ writers :=
      fun member => Nat.lt_irrefl _ (writersInWorld _ member)
    simp [noReaders, noWriters, fresh]
  · have fresh : ∀ store ∈ readers, store ≠ world.stores.length :=
      fun store member => Nat.ne_of_lt (readersInWorld store member)
    simpa [noReaders, noWriters] using fresh
  · simp [noReaders, noWriters]

end Build

/-- What a repository has to do with the stores that it is built from, whatever is put into it and
into the stores. -/
structure Wired (schema : Schema) (world : World) (readers writers : List Nat)
    (built : World × Repository) : Prop where
  /-- A given list is used as it is, unless it is empty. -/
  readFrom : built.2.readers = if readers = [] then [world.stores.length] else readers
  writtenTo : built.2.writers = if writers = [] then [world.stores.length] else writers
  /-- There is one new store, if any list is empty. -/
  stores : built.1.stores =
    world.stores ++ if readers = [] ∨ writers = [] then [Store.empty] else []
  /-- A read finds what the first reader that has an entry holds, and nothing if none has. -/
  probed : ∀ actions slot,
    let now := built.2.acts schema actions built.1
    (∀ cell, built.2.read now slot = some cell ↔ ∃ earlier store later,
      built.2.readers = earlier ++ store :: later ∧ now.get store slot = some cell ∧
        ∀ other ∈ earlier, now.get other slot = none) ∧
    (built.2.read now slot = none ↔ ∀ store ∈ built.2.readers, now.get store slot = none)
  /-- A put is one single write after the other. -/
  sequence : ∀ now order entity,
    (((built.2.storing schema order).putEntity entity).run now).2 =
      (schema.entities order entity).foldl
        (fun world each => world.put schema built.2.writers each) now
  /-- A single write puts one shared value into each writer, and changes nothing else. -/
  broadcast : ∀ (now : World) entity store slot, now.stores.length = built.1.stores.length →
    (now.put schema built.2.writers entity).get store slot =
      if store ∈ built.2.writers ∧ schema.slot entity = slot then some ⟨now.next, entity.value⟩
      else now.get store slot
  /-- A store holds what it has received last, from the repository or directly. -/
  held : ∀ actions, ∀ store < built.1.stores.length, ∀ slot,
    (built.2.acts schema actions built.1).contents store slot =
      ((schema.lastAt slot (actions.flatMap (built.2.received schema store))).map
        EntityValue.value).or (built.1.contents store slot)
  /-- Writers that hold the same, be it by value or the same shared values, do so after puts. -/
  alike : ∀ {α : Type} (view : Cell → α) actions puts, ∀ a ∈ built.2.writers,
    ∀ b ∈ built.2.writers,
    let now := built.2.acts schema actions built.1
    (∀ slot, (now.get a slot).map view = (now.get b slot).map view) →
      ∀ slot, ((built.2.run schema puts now).get a slot).map view =
        ((built.2.run schema puts now).get b slot).map view
  apart : (∀ store ∈ built.2.readers, store ∉ built.2.writers) ↔
    (∀ store ∈ readers, store ∉ writers) ∧ (readers ≠ [] ∨ writers ≠ [])
  /-- If no store is read from and written to, no put changes the answer of a read. -/
  unchanged : (∀ store ∈ built.2.readers, store ∉ built.2.writers) →
    ∀ actions order entity iteration slot,
      let now := built.2.acts schema actions built.1
      (built.2.reading schema iteration
          (((built.2.storing schema order).putEntity entity).run now).2).get slot =
        (built.2.reading schema iteration now).get slot

/-- The stores of a repository, given any lists of readers and of writers. -/
theorem wired_build (schema : Schema) (world : World) (readers writers : List Nat)
    (readersInWorld : ∀ reader ∈ readers, reader < world.stores.length)
    (writersInWorld : ∀ writer ∈ writers, writer < world.stores.length) :
    Wired schema world readers writers (build world readers writers) where
  readFrom := readers_build
  writtenTo := writers_build
  stores := stores_build
  probed actions slot := ⟨fun cell => List.findSome?_eq_some_iff, List.findSome?_eq_none_iff⟩
  sequence now order entity := Storing.world_putEntity _ entity now
  broadcast now entity store slot same := by
    have inWorld := writers_lt_build readers writersInWorld
    rw [World.get_put, same]
    refine if_congr (and_congr_left fun _ => ?_) rfl rfl
    exact and_iff_left_of_imp (inWorld store)
  held actions store bound slot := contents_acts bound actions
  alike := by
    intro α view actions puts a first b second now same slot
    refine alike_run view puts ?_ first second same slot
    intro writer member
    rw [length_acts]
    exact writers_lt_build readers writersInWorld writer member
  apart := apart_build_iff readersInWorld writersInWorld
  unchanged apart actions order entity iteration slot :=
    congrArg (fun reading => reading.get slot) (reading_put apart order entity iteration)

end Repository

/-- A repository reads from two stores and writes to the second of them and to a third one. A tag
that was put directly into the first store hides the version that comes with an album. -/
theorem Album.wired_three_stores :
    let world := World.ofCount 3
    let built := Repository.build world [0, 1] [1, 2, 1]
    let now := built.2.acts schema
      [.store 0 tag ⟨9, tagValue 7 5⟩, .put Iteration.sorted ⟨album, albumValue 1 (tagValue 7 0) []⟩]
      built.1
    Repository.Wired schema world [0, 1] [1, 2, 1] built ∧
      built.2.read now ⟨tag, .int 7⟩ = some ⟨9, tagValue 7 5⟩ ∧
      now.get 1 ⟨tag, .int 7⟩ = some ⟨1, tagValue 7 0⟩ ∧
      now.get 2 ⟨tag, .int 7⟩ = now.get 1 ⟨tag, .int 7⟩ ∧
      built.2.read now ⟨album, .int 1⟩ = now.get 1 ⟨album, .int 1⟩ := by
  intro world built now
  exact ⟨Repository.wired_build schema world [0, 1] [1, 2, 1] (by decide) (by decide), by decide,
    by decide, by decide, by decide⟩

end EntityGen
