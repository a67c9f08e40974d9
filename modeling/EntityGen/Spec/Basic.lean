import EntityGen.Naming
import EntityGen.Spec.Marks

/-! Entity specs. A struct is accepted as a spec if each of a list of conditions holds; they are
judged in the order in which `Spec.ofStruct` states them, and the first that fails is reported. -/
namespace EntityGen

/-- The names of the modules around a declaration, outermost first. -/
abbrev ModulePath := List Ident

def ModulePath.text (path : ModulePath) : String := "::".intercalate (path.map Ident.text)

structure SpecField where
  name : Ident
  ty : Ty
  attrs : List Attribute
  isId : Bool

structure Spec where
  module : ModulePath
  /-- The name of the declaring struct. -/
  ident : Ident
  name : String
  typeName : Ident
  vis : Code
  fields : List SpecField
  id : Fin fields.length
  derives : List Path
  attrs : List Attribute
  pos : Pos

def Spec.idField (spec : Spec) : SpecField := spec.fields[spec.id]

namespace SpecField

/-- Each mark of an id field is a bare one. The result says whether there is one. -/
def readMarks (spec : String) : List Attribute → Except SpecError Bool
  | [] => .ok false
  | attr :: rest =>
    if !attr.isId then readMarks spec rest
    else if attr.args == .none then (readMarks spec rest).map fun _ => true
    else .error ⟨spec, .invalid .markerArguments, attr.pos⟩

def ofField (spec : String) (field : Field) : Except SpecError SpecField := do
  if field.name == ⟨"new", false⟩ then
    throw ⟨spec, .invalid .constructorField, field.namePos⟩
  if let some form := field.ty.hidden? then
    throw ⟨spec, .invalid (.hiddenField field.name form), field.tyPos⟩
  let isId ← readMarks spec field.attrs
  return ⟨field.name, field.ty, field.attrs.filter Attribute.isCarried, isId⟩

end SpecField

namespace Spec

def ofFields (decl : Struct) (module : ModulePath) (names : SpecName) (fields : List SpecField) :
    Except SpecError Spec := do
  let some id := fields.findFinIdx? SpecField.isId
    | throw ⟨names.name, .missingId, decl.namePos⟩
  if fields.countP SpecField.isId != 1 then
    throw ⟨names.name, .multipleIds (fields.countP SpecField.isId), decl.namePos⟩
  let typeText := Naming.typeName names.name names.className
  let some typeName := Ident.ofText? typeText
    | throw ⟨names.name, .invalid (.typeName typeText), decl.namePos⟩
  let derives ← derivedTraits names.name decl.attrs
  return {
    module, ident := decl.name, name := names.name, typeName, vis := decl.vis, fields, id, derives
    attrs := decl.attrs.filter Attribute.isCarried, pos := decl.namePos }

def ofStruct (decl : Struct) (module : ModulePath) : Except SpecError Spec := do
  let names ← SpecName.ofAttributes decl.attrs decl.name.text
  let invalid (defect : SpecDefect) (pos : Pos) : SpecError := ⟨names.name, .invalid defect, pos⟩
  if decl.generics.isSome || decl.bounded then
    throw (invalid .generic (decl.generics.getD .none))
  let .named declared := decl.fields | throw (invalid .unnamedFields decl.namePos)
  let fields ← declared.mapM (SpecField.ofField names.name)
  ofFields decl module names fields

end Spec
end EntityGen
