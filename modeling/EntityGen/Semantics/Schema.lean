import EntityGen.Resolve.Resolution
import EntityGen.Semantics.Value

/-! Schemas: which properties the types of a model have and which of them is the id. An entity is
the sequence of the values of its properties. -/
namespace EntityGen

structure EntitySchema where
  type : EntityType
  properties : List ResolvedType
  /-- The property that holds the id. -/
  id : Fin properties.length

def Entity.schema (entity : Entity) : EntitySchema :=
  ⟨entity.type, entity.properties.map Property.resolved,
    entity.spec.id.cast (by rw [List.length_map, entity.length_properties])⟩

abbrev Schema := List EntitySchema

def Resolution.schema (resolution : Resolution) : Schema := resolution.entities.map Entity.schema

/-- The place of an entity: a store keeps one entity for each. -/
structure Slot where
  type : EntityType
  id : Value
  deriving DecidableEq, Repr

structure EntityValue where
  type : EntityType
  value : Value
  deriving DecidableEq, Repr

namespace Schema

def find? (schema : Schema) (type : EntityType) : Option EntitySchema :=
  List.find? (fun entity => entity.type == type) schema

def properties (schema : Schema) (type : EntityType) : List ResolvedType :=
  ((schema.find? type).map EntitySchema.properties).getD []

def idOf (schema : Schema) (entity : EntityValue) : Value :=
  match schema.find? entity.type, entity.value with
  | some found, .seq fields => fields[found.id.val]?.getD .null
  | _, _ => .null

def slot (schema : Schema) (entity : EntityValue) : Slot := ⟨entity.type, schema.idOf entity⟩

end Schema

/-- The order in which the hash maps of a value are iterated: the rank of an entry in the map at a
place, which is the path to it. Entries of one rank are met in the order of their keys. -/
abbrev Iteration := List Nat → Value → Nat

namespace Iteration

/-- Every map is iterated in the order of its keys. -/
def sorted : Iteration := fun _ _ => 0

def within (iteration : Iteration) (part : Nat) : Iteration := fun place => iteration (part :: place)

/-- What belongs to the entries of a map, in the order in which the map is iterated. -/
def arrange (iteration : Iteration) (kind : MapKind) (entries : List Value)
    (results : List α) : List α :=
  match kind with
  | .btreeMap => results
  | .hashMap =>
    let ranked := (entries.map (iteration [])).zip results
    (ranked.mergeSort fun a b => a.1 ≤ b.1).map Prod.snd

end Iteration
end EntityGen
