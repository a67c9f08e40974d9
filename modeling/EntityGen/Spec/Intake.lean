import EntityGen.Spec.Basic

/-! Specs in a tree of modules. Every marked struct directly in a module with a body is one or is
in error, every marked enum there is in error, and modules without a body are passed with a
warning. Nothing else is looked into. -/
namespace EntityGen

structure Intake where
  specs : List Spec := []
  errors : List SpecError := []
  warnings : List String := []

namespace Intake

def append (a b : Intake) : Intake :=
  ⟨a.specs ++ b.specs, a.errors ++ b.errors, a.warnings ++ b.warnings⟩

instance : Append Intake := ⟨append⟩

def ofStruct (path : ModulePath) (decl : Struct) : Intake :=
  if !decl.attrs.any Attribute.isSpec then {}
  else match Spec.ofStruct decl path with
    | .ok spec => { specs := [spec] }
    | .error error => { errors := [error] }

def ofEnum (decl : Enum) : Intake :=
  if !decl.attrs.any Attribute.isSpec then {}
  else { errors := [⟨decl.name.text, .invalid .markedEnum, decl.pos⟩] }

def bodilessWarning (path : ModulePath) (name : Ident) : String :=
  "skipping `mod " ++ name.text ++ ";` in `" ++ path.text ++
    "`: only inline modules are scanned for entity specs"

mutual

def ofItem (path : ModulePath) : Item → Intake
  | .struct decl => ofStruct path decl
  | .enum decl => ofEnum decl
  | .module head none => { warnings := [bodilessWarning path head.name] }
  | .module head (some items) => ofItems (path ++ [head.name]) items
  | .other _ _ => {}

def ofItems (path : ModulePath) : List Item → Intake
  | [] => {}
  | item :: rest => ofItem path item ++ ofItems path rest

end

end Intake
end EntityGen
