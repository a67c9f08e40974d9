import EntityGen.Grammar.Ty

/-! Why a declaration is no entity spec. -/
namespace EntityGen

inductive SpecDefect where
  | missingAttribute
  | repeatedAttribute
  /-- The arguments of an attribute cannot be read. -/
  | arguments (detail : String)
  | missingName
  | emptyName
  | generic
  | unnamedFields
  | constructorField
  | hiddenField (field : Ident) (form : Hidden)
  | markerArguments
  | typeName (text : String)
  | markedEnum
  /-- The id would identify an entity by another one. -/
  | entityId (field : Ident)
  | takenName (name : Ident) (owner : String)
  /-- A defect in words. -/
  | stated (detail : String)
  deriving DecidableEq, Repr

def Hidden.text : Hidden → String
  | invocation => "a macro in type position"
  | implTrait => "`impl Trait`"
  | inferred => "an inferred type `_`"

def SpecDefect.detail : SpecDefect → String
  | missingAttribute => "missing #[entity_spec] attribute"
  | repeatedAttribute => "#[entity_spec] may only appear once"
  | arguments detail => detail
  | missingName => "#[entity_spec] requires `name = \"...\"`"
  | emptyName => "`name` must not be empty"
  | generic => "generic parameters are not supported on entity specs"
  | unnamedFields => "expected a struct with named fields"
  | constructorField => "field name `new` collides with the generated constructor"
  | hiddenField field form =>
    "field `" ++ field.text ++ "` uses " ++ form.text ++ ", which cannot be analyzed"
  | markerArguments => "#[entity_id] takes no arguments"
  | typeName text => "`" ++ text ++ "` is not a valid type name"
  | markedEnum => "#[entity_spec] must be placed on a struct with named fields"
  | entityId field => "id field `" ++ field.text ++ "` must not refer to an entity type"
  | takenName name owner =>
    "generated name `" ++ name.text ++ "` is already used by `" ++ owner ++ "`"
  | stated detail => detail

inductive SpecFault where
  | missingId
  | multipleIds (count : Nat)
  | invalid (defect : SpecDefect)
  deriving DecidableEq, Repr

structure SpecError where
  spec : String
  fault : SpecFault
  pos : Pos
  deriving DecidableEq, Repr

def SpecError.message (error : SpecError) : String :=
  match error.fault with
  | .missingId => "entity spec `" ++ error.spec ++ "` has no field marked #[entity_id]"
  | .multipleIds count => "entity spec `" ++ error.spec ++ "` marks " ++ toString count ++
      " fields with #[entity_id], exactly one is allowed"
  | .invalid defect => "invalid entity spec `" ++ error.spec ++ "`: " ++ defect.detail

end EntityGen
