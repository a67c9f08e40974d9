import EntityGen.Semantics.Schema

/-! Stores in memory and the world that they are in. A stored entity is a shared value, and a store
that takes part in several repositories is one store; so stores are known by their numbers in the
world and shared values by tags, of which no two allocations have the same. -/
namespace EntityGen

structure Cell where
  tag : Nat
  value : Value
  deriving DecidableEq, Repr

abbrev Store := Slot → Option Cell

namespace Store

def empty : Store := fun _ => none

def put (store : Store) (slot : Slot) (cell : Cell) : Store :=
  fun other => if other = slot then some cell else store other

end Store

structure World where
  stores : List Store := []
  /-- The tag of the next allocation. -/
  next : Nat := 0

namespace World

def ofCount (count : Nat) : World := { stores := List.replicate count Store.empty }

def get (world : World) (store : Nat) (slot : Slot) : Option Cell :=
  world.stores[store]?.bind fun store => store slot

def putCell (world : World) (stores : List Nat) (slot : Slot) (cell : Cell) : World :=
  { world with stores :=
      stores.foldl (fun all store => all.modify store fun s => s.put slot cell) world.stores }

/-- Allocates an entity and puts it into each of the given stores. -/
def put (world : World) (schema : Schema) (stores : List Nat) (entity : EntityValue) : World :=
  let cell : Cell := ⟨world.next, entity.value⟩
  { world.putCell stores (schema.slot entity) cell with next := world.next + 1 }

end World

/-- A repository, by the numbers of the stores that it reads from and writes to. -/
structure Repository where
  readers : List Nat
  writers : List Nat
  deriving DecidableEq, Repr

namespace Repository

/-- Builds a repository. A new store stands in for a list that is empty, the same one for both. -/
def build (world : World) (readers writers : List Nat) : World × Repository :=
  if readers.isEmpty || writers.isEmpty then
    let fresh := world.stores.length
    let orFresh (stores : List Nat) := if stores.isEmpty then [fresh] else stores
    ({ world with stores := world.stores ++ [Store.empty] },
      ⟨orFresh readers, orFresh writers⟩)
  else (world, ⟨readers, writers⟩)

/-- What the first reader that has an entity holds for a slot. -/
def read (repository : Repository) (world : World) (slot : Slot) : Option Cell :=
  repository.readers.findSome? fun store => world.get store slot

end Repository
end EntityGen
