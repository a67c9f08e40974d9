import EntityGen.Grammar.Scan
import EntityGen.Text.SnakeCase

/-! Names of what is generated. Everything that belongs to one entity shares the stem of its type
name, which is the name in snake case. -/
namespace EntityGen

/-- A text that is needed as an identifier and is none. -/
structure BadName where
  text : String
  deriving DecidableEq, Repr

def BadName.message (bad : BadName) : String := Quoted.quote bad.text ++ " is not a valid Ident"

def isIdentifierText (text : String) : Bool :=
  match text.toList with
  | [] => false
  | c :: rest => Text.isIdentifierStart c && rest.all Text.isIdentifierContinue

namespace Naming

/-- The name of the type that is generated for a spec: the name of the class if there is one that
is not empty, else the name of the entity, beginning in upper case. -/
def typeName (name : String) (className : Option String) : String :=
  match className with
  | some text => Text.upperFirst (if text.isEmpty then name else text)
  | none => Text.upperFirst name

def stem (entity : Ident) : String := Text.snakeCase entity.text

def plain (text : String) : Ident := ⟨text, false⟩

def getMethod (entity : Ident) : Ident := plain ("get_" ++ stem entity)
def putMethod (entity : Ident) : Ident := plain ("put_" ++ stem entity)
def readMethod (entity : Ident) : Ident := plain ("read_" ++ stem entity)
def writeMethod (entity : Ident) : Ident := plain ("write_" ++ stem entity)

def byIdField (entity : Ident) : Except BadName Ident :=
  let text := stem entity ++ "_by_id"
  if isIdentifierText text then .ok (plain text) else .error ⟨text⟩

/-- A property is read by a method of its own name. -/
def getter (property : Ident) : Ident := property

def fileStem (type : Ident) : String := Text.snakeCase type.name

/-! The types of the store module have fixed names. -/

def entityRef : Ident := plain "EntityRef"
def memoryStore : Ident := plain "InMemoryEntityStore"
def repository : Ident := plain "NormalizedEntityRepository"
def repositoryBuilder : Ident := plain "NormalizedEntityRepositoryBuilder"
def storeReader : Ident := plain "EntityStoreReader"
def storeWriter : Ident := plain "EntityStoreWriter"
def repositoryReader : Ident := plain "NormalizedEntityRepositoryReader"
def repositoryWriter : Ident := plain "NormalizedEntityRepositoryWriter"

/-! Local names of generated methods are numbered by the nesting they stand in. -/

def itemVar (depth : Nat) : Ident := plain ("item" ++ toString depth)
def keyVar (depth : Nat) : Ident := plain ("key" ++ toString depth)
def valueVar (depth : Nat) : Ident := plain ("value" ++ toString depth)
def nestedCopy (depth : Nat) : Ident := plain ("copy" ++ toString depth)

def propertyCopy (property : Ident) : Ident := plain (property.name ++ "_copy")

def propertyLatest (property : Ident) : Ident := plain (property.name ++ "_latest")

end Naming
end EntityGen
