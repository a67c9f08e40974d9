import EntityGen.Semantics.Store

/-! Reading an entity from a repository. What is cached is compared with what is stored for the
entities it holds: direct properties are read in the same way, entities in containers are taken as
they are stored. Only if one of them differs is there a new entity. -/
namespace EntityGen

/-- The value for an entity that is held by another one: the latest version of it, if there is one
and it differs from the cached one. The second part says whether it does. -/
def reconcile (cached : Value) : Option Value → Value × Bool
  | some latest => if latest = cached then (cached, false) else (latest, true)
  | none => (cached, false)

inductive Found where
  | stored (cell : Cell)
  | rebuilt (value : Value)
  deriving DecidableEq, Repr

def Found.value : Found → Value
  | stored cell => cell.value
  | rebuilt value => value

/-- How entities are read: the schema, what is stored, and the order of iteration for the shared
value of each tag. -/
structure Reading where
  schema : Schema
  iteration : Nat → Iteration := fun _ => Iteration.sorted
  stored : Slot → Option Cell

namespace Reading

def enter (map : List Value) : Value → List Value
  | .pair key value => Value.insertEntry key value map
  | _ => map

def grow (entries : List Value) : List Value := entries.foldl enter []

/-- The present state of an entry of a map, by those of its key and of its value. -/
def rebuildEntry (rebuildKey rebuildValue : Value → Value × Bool) : Value → Value × Bool
  | .pair key value =>
    let newKey := rebuildKey key
    let newValue := rebuildValue value
    (.pair newKey.1 newValue.1, newKey.2 || newValue.2)
  | entry => (entry, false)

/-- The present state of a value in a container, and whether an entity in it has changed. -/
def rebuild (reading : Reading) (iteration : Iteration) : ResolvedType → Value → Value × Bool
  | .entity type, value =>
    let slot := reading.schema.slot ⟨type, value⟩
    reconcile value ((reading.stored slot).map Cell.value)
  | .list _ elem, .seq items =>
    if elem.holdsEntities then
      let rebuilt := items.mapIdx fun i item => rebuild reading (iteration.within i) elem item
      (.seq (rebuilt.map Prod.fst), rebuilt.any Prod.snd)
    else (.seq items, false)
  | .map kind keyType valueType, .seq entries =>
    if keyType.holdsEntities || valueType.holdsEntities then
      let rebuilt := entries.mapIdx fun i entry => rebuildEntry
        (fun key => rebuild reading (iteration.within (2 * i)) keyType key)
        (fun value => rebuild reading (iteration.within (2 * i + 1)) valueType value) entry
      let met := iteration.arrange kind entries rebuilt
      (.seq (grow (met.map Prod.fst)), met.any Prod.snd)
    else (.seq entries, false)
  | _, value => (value, false)

/-- The present states of properties; `get` reads the entities that they hold directly. -/
def refresh (reading : Reading) (get : Slot → Option (Option Found)) (iteration : Iteration) :
    List ResolvedType → List Value → Option (List (Value × Bool))
  | .entity type :: types, value :: values => do
    let latest ← get (reading.schema.slot ⟨type, value⟩)
    let rest ← refresh reading get (iteration.within 1) types values
    return reconcile value (latest.map Found.value) :: rest
  | type :: types, value :: values => do
    let rest ← refresh reading get (iteration.within 1) types values
    return reading.rebuild (iteration.within 0) type value :: rest
  | _, _ => some []

/-- A cached entity, or a new one if an entity that it holds has changed. -/
def current (reading : Reading) (get : Slot → Option (Option Found)) (type : EntityType)
    (cached : Cell) : Option Found :=
  match cached.value with
  | .seq fields =>
    let types := reading.schema.properties type
    (reading.refresh get (reading.iteration cached.tag) types fields).map fun states =>
      if states.any Prod.snd then .rebuilt (.seq (states.map Prod.fst)) else .stored cached
  | _ => some (.stored cached)

/-- Reads an entity. `depth` bounds how deep entities nest by direct properties; there is no
answer if they nest deeper. -/
def getWithin (reading : Reading) : Nat → Slot → Option (Option Found)
  | 0, _ => none
  | depth + 1, slot =>
    match reading.stored slot with
    | none => some none
    | some cached => (reading.current (reading.getWithin depth) slot.type cached).map some

/-- Reads an entity. Direct properties of a schema do not nest deeper than it has types, since no
type contains itself by value. -/
def get (reading : Reading) (slot : Slot) : Option (Option Found) :=
  reading.getWithin reading.schema.length slot

end Reading

def Repository.reading (repository : Repository) (schema : Schema) (iteration : Nat → Iteration)
    (world : World) : Reading :=
  ⟨schema, iteration, repository.read world⟩

end EntityGen
