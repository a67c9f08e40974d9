import EntityGen.Resolve.Resolved

/-! The resolution of a round. A spec is accepted if its id, judged by the names of all specs,
mentions no entity, and if no accepted spec before it has its type name. The properties of
accepted specs are then resolved by the names of accepted specs alone. -/
namespace EntityGen

structure Property where
  name : Ident
  resolved : ResolvedType
  /-- The type as it is declared, for signatures in the module of the entity. -/
  declared : Ty
  attrs : List Attribute
  isId : Bool

structure Entity where
  spec : Spec
  properties : List Property
  length_properties : properties.length = spec.fields.length

namespace Entity

def type (entity : Entity) : EntityType := ⟨entity.spec.module, entity.spec.typeName⟩

def name (entity : Entity) : Ident := entity.spec.typeName

def idProperty (entity : Entity) : Property :=
  entity.properties.get (entity.spec.id.cast entity.length_properties.symm)

end Entity

def Spec.type (spec : Spec) : EntityType := ⟨spec.module, spec.typeName⟩

structure Resolution where
  table : EntityTable := {}
  entities : List Entity := []
  errors : List SpecError := []

namespace Resolution

/-- The first spec of each type name, whether it is accepted or not. -/
def candidates (specs : List Spec) : EntityTable :=
  specs.foldl (fun table spec => table.offer spec.type) {}

/-- The table with a spec, if it is accepted into it. -/
def accept (candidates table : EntityTable) (spec : Spec) : Except SpecError EntityTable :=
  if (candidates.resolve spec.idField.ty).mentionsEntity then
    .error ⟨spec.name, .invalid (.entityId spec.idField.name), spec.pos⟩
  else (table.insert spec.type).mapError fun owner =>
    ⟨spec.name, .invalid (.takenName spec.typeName owner.text), spec.pos⟩

/-- Specs on their way through a round. -/
structure Sorted where
  table : EntityTable := {}
  accepted : List Spec := []
  errors : List SpecError := []

def sortOne (candidates : EntityTable) (sorted : Sorted) (spec : Spec) : Sorted :=
  match accept candidates sorted.table spec with
  | .ok table => { sorted with table, accepted := sorted.accepted ++ [spec] }
  | .error error => { sorted with errors := sorted.errors ++ [error] }

def sort (specs : List Spec) : Sorted := specs.foldl (sortOne (candidates specs)) {}

def property (table : EntityTable) (field : SpecField) : Property :=
  ⟨field.name, table.resolve field.ty, field.ty, field.attrs, field.isId⟩

def entity (table : EntityTable) (spec : Spec) : Entity :=
  ⟨spec, spec.fields.map (property table), List.length_map ..⟩

def ofSpecs (specs : List Spec) : Resolution :=
  let sorted := sort specs
  ⟨sorted.table, sorted.accepted.map (entity sorted.table), sorted.errors⟩

end Resolution
end EntityGen
