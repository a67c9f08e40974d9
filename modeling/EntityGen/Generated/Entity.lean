import EntityGen.Generated.Paths
import EntityGen.Resolve.Resolution

/-! The type of an entity: a struct with the properties as its fields, a constructor that takes
all of them in the order of declaration, a method of the same name for each, and the trait that
gives its id. -/
namespace EntityGen.Entity

/-- The traits that each entity derives. Reads compare entities by value. -/
def baseTraits : List Ident := ["Debug", "Clone", "PartialEq"].map Naming.plain

/-- The base traits and then those of the spec that are none of them. -/
def traits (entity : Entity) : List Code :=
  let extra := entity.spec.derives.filter fun path =>
    !path.segments.getLast?.any fun last => baseTraits.contains last.name
  baseTraits.map (fun name => [.word name]) ++ extra.map Path.code

/-- The attributes of the spec, with a line of documentation if there is none. -/
def attrs (entity : Entity) : List Code :=
  let own := entity.spec.attrs
  let documented := own.any fun attr => attr.path.isWord "doc"
  own.map Attribute.code ++
    (if documented then [] else [Code.doc ("Entity `" ++ entity.spec.name ++ "`.")]) ++
    [Code.derive entity.traits]

def field (property : Property) : FieldDecl :=
  { attrs := property.attrs.map Attribute.code, name := property.name,
    type := property.declared.code }

def argumentLimit : Nat := 7

def constructor (entity : Entity) : Method :=
  let names := entity.properties.map Property.name
  { attrs :=
      if argumentLimit < entity.properties.length then
        [Code.allow (Code.step [.plain "clippy"] ⟨"too_many_arguments", false⟩)]
      else []
    isPublic := true
    name := Naming.plain "new"
    receiver := .absent
    params := entity.properties.map fun property => (property.name, property.declared.code)
    result := some Code.itself
    body := some [.ret (.construct Code.itself names)] }

def getter (property : Property) : Method :=
  { isPublic := true
    name := Naming.getter property.name
    result := some (.punct '&' :: property.declared.code)
    body := some [.ret (Expr.self.field property.name).borrow] }

def idType (entity : Entity) : Code :=
  .plain "type" :: .plain "Id" :: .punct '=' :: entity.idProperty.declared.code ++ [.punct ';']

def fullNameType : Code := [.punct '&', .lifetime "\x27static", .plain "str"]

/-- The full name: the module that a compiler finds the entity in, and its own name. -/
def fullNameText (entity : Entity) : Code :=
  let module : Code := .plain "module_path" :: .punct '!' :: Code.within .round []
  let name : Code := [.literal (Quoted.quote ("::" ++ entity.name.text))]
  .plain "concat" :: .punct '!' :: Code.within .round (Code.commas [module, name])

def fullName (entity : Entity) : Code :=
  .plain "const" :: .plain "ENTITY_TYPE" :: .punct ':' :: fullNameType ++
    .punct '=' :: entity.fullNameText ++ [.punct ';']

def idMethod (entity : Entity) : Method :=
  { name := Naming.plain "id"
    result := some (Code.step Code.itself ⟨"Id", false⟩)
    body := some [.ret (Expr.self.field entity.idProperty.name).borrow.cloned] }

def typeDecl (entity : Entity) (runtime : Path) : TypeDecl :=
  { part := .entity
    placement := .entity entity.spec.module entity.spec.ident
    name := entity.name
    vis := entity.spec.vis
    attrs := entity.attrs
    shape := .struct (entity.properties.map field)
    inherent := entity.constructor :: entity.properties.map getter
    impls :=
      [{ trait := runtime.entityTrait
         items := [entity.idType, entity.fullName]
         methods := [entity.idMethod] }] }

end EntityGen.Entity
