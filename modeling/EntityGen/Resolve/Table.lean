import EntityGen.Spec.Basic

/-! The table of entity types of a round. It maps the simple name of a type to the type and the
module that it is generated in; entries stand in the order of their names. -/
namespace EntityGen

/-- A generated type and the module it stands in, seen from the root module. -/
structure EntityType where
  module : ModulePath
  name : Ident
  deriving DecidableEq, Repr

namespace EntityType

def text (entity : EntityType) : String :=
  if entity.module.isEmpty then entity.name.text
  else entity.module.text ++ "::" ++ entity.name.text

/-- The path of the type as code in the store module writes it, which is a child of the root. -/
def fromStore (entity : EntityType) : Code :=
  (entity.module ++ [entity.name]).foldl Code.step [.plain "super"]

def idType (entity : EntityType) (runtime : Path) : Code :=
  Code.applied [] (entity.fromStore ++ .plain "as" :: runtime.code.step ⟨"Entity", false⟩)
    |>.step ⟨"Id", false⟩

end EntityType

structure EntityTable where
  entries : List EntityType := []
  deriving DecidableEq, Repr

namespace EntityTable

def lookup (table : EntityTable) (name : String) : Option EntityType :=
  table.entries.find? fun entry => entry.name.text == name

def contains (table : EntityTable) (name : String) : Bool := (table.lookup name).isSome

/-- The entries with one more before the first of greater name. -/
def place (entity : EntityType) : List EntityType → List EntityType
  | [] => [entity]
  | entry :: rest =>
    if entity.name.text < entry.name.text then entity :: entry :: rest
    else entry :: place entity rest

/-- A name that is taken keeps its entry, which is then the answer. -/
def insert (table : EntityTable) (entity : EntityType) : Except EntityType EntityTable :=
  match table.lookup entity.name.text with
  | some owner => .error owner
  | none => .ok ⟨place entity table.entries⟩

def offer (table : EntityTable) (entity : EntityType) : EntityTable :=
  (table.insert entity).toOption.getD table

end EntityTable
end EntityGen
