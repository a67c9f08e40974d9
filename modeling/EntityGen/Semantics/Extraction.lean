import EntityGen.Semantics.Store

/-! Storing an entity in a repository. The entity is written to all writers, and then every entity
that stands in one of its properties is stored in the same way, in the order of declaration and of
iteration, keys before values. -/
namespace EntityGen

/-- The entities that a put has written, each once. -/
abbrev DirtySet := List EntityValue

namespace DirtySet

/-- Adds an entity. It is looked for among those of its type and id, and told apart by its value. -/
def insert (schema : Schema) (set : DirtySet) (entity : EntityValue) : DirtySet :=
  if set.any fun other => schema.slot other == schema.slot entity && other == entity then set
  else set ++ [entity]

def merge (schema : Schema) (a b : DirtySet) : DirtySet := b.foldl (DirtySet.insert schema) a

end DirtySet

abbrev Writing := StateM World DirtySet

/-- How an entity is stored: the schema, the order of iteration and the stores written to. -/
structure Storing where
  schema : Schema
  iteration : Iteration := Iteration.sorted
  writers : List Nat

namespace Storing

def within (storing : Storing) (part : Nat) : Storing :=
  { storing with iteration := storing.iteration.within part }

def write (storing : Storing) (entity : EntityValue) : Writing := do
  modify fun world => world.put storing.schema storing.writers entity
  return [entity]

/-- One writing after the other, with all reports in one. -/
def all (storing : Storing) : List Writing → Writing
  | [] => return []
  | first :: rest => do
    let before ← first
    let after ← all storing rest
    return DirtySet.merge storing.schema before after

mutual

/-- Stores each entity in a value of the given type. -/
def put (storing : Storing) : ResolvedType → Value → Writing
  | .entity type, .seq fields => do
    let own ← storing.write ⟨type, .seq fields⟩
    let nested ← storing.all (putFields storing (storing.schema.properties type) fields)
    return DirtySet.merge storing.schema own nested
  | .entity type, value => storing.write ⟨type, value⟩
  | .list _ elem, .seq items => storing.all (putItems storing elem items)
  | .map kind key value, .seq entries =>
    storing.all (storing.iteration.arrange kind entries (putEntries storing key value entries))
  | _, _ => return []

def putFields (storing : Storing) : List ResolvedType → List Value → List Writing
  | type :: types, field :: fields =>
    put (storing.within 0) type field :: putFields (storing.within 1) types fields
  | _, _ => []

def putItems (storing : Storing) (type : ResolvedType) : List Value → List Writing
  | [] => []
  | item :: rest => put (storing.within 0) type item :: putItems (storing.within 1) type rest

def putEntries (storing : Storing) (keyType valueType : ResolvedType) :
    List Value → List Writing
  | [] => []
  | .pair key value :: rest =>
    storing.all [put (storing.within 0) keyType key, put (storing.within 1) valueType value] ::
      putEntries (storing.within 2) keyType valueType rest
  | _ :: rest => pure [] :: putEntries (storing.within 2) keyType valueType rest

end

def putEntity (storing : Storing) (entity : EntityValue) : Writing :=
  storing.put (.entity entity.type) entity.value

end Storing

def Repository.storing (repository : Repository) (schema : Schema) (iteration : Iteration) :
    Storing :=
  ⟨schema, iteration, repository.writers⟩

end EntityGen
