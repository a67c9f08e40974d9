import EntityGen.Generated.Body
import EntityGen.Spec.Basic

/-! Declarations of generated types. A type is declared with its own methods and the traits that
it implements; its code is a unit, which is placed as a whole. -/
namespace EntityGen

inductive Part where
  | entity
  | store
  | repository
  | storeInterfaces
  | repositoryInterfaces
  deriving DecidableEq, Repr

namespace Part

def all : List Part := [entity, store, repository, storeInterfaces, repositoryInterfaces]

def name : Part → String
  | entity => "entity"
  | store => "store"
  | repository => "repository"
  | storeInterfaces => "store_interfaces"
  | repositoryInterfaces => "repository_interfaces"

/-- Units of the part stand in the store module. -/
def inStore (part : Part) : Bool := part != entity

end Part

inductive Placement where
  /-- In place of the struct that declares a spec. -/
  | entity (module : ModulePath) (spec : Ident)
  | store
  deriving DecidableEq, Repr

/-- How a method takes the value that it belongs to. -/
inductive Receiver where
  | absent
  | ref
  | refMut
  | value
  | mutValue
  deriving DecidableEq, Repr

structure Method where
  attrs : List Code := []
  /-- Callers outside of the module see the method. -/
  isPublic : Bool := false
  name : Ident
  generics : Code := []
  receiver : Receiver := .ref
  params : List (Ident × Code) := []
  result : Option Code := none
  /-- Absent where a trait declares the method. -/
  body : Option Body := none

def Method.signature (method : Method) : Method :=
  { method with attrs := [], isPublic := false, body := none }

structure FieldDecl where
  attrs : List Code := []
  name : Ident
  type : Code

structure VariantDecl where
  attrs : List Code := []
  name : Ident
  payload : Code

inductive TypeShape where
  | struct (fields : List FieldDecl)
  | enum (variants : List VariantDecl)
  | trait (methods : List Method)

structure ImplDecl where
  attrs : List Code := []
  trait : Code
  /-- Types and constants of the trait. -/
  items : List Code := []
  methods : List Method := []

structure TypeDecl where
  part : Part
  placement : Placement
  name : Ident
  vis : Code
  attrs : List Code
  shape : TypeShape
  inherent : List Method := []
  impls : List ImplDecl := []

/-- The code of one generated type. -/
structure GeneratedUnit where
  part : Part
  placement : Placement
  name : Ident
  code : Code
  deriving DecidableEq, Repr

def Receiver.codes : Receiver → List Code
  | absent => []
  | ref => [[.punct '&', .plain "self"]]
  | refMut => [[.punct '&', .plain "mut", .plain "self"]]
  | value => [[.plain "self"]]
  | mutValue => [[.plain "mut", .plain "self"]]

def Method.head (method : Method) : Code :=
  let params := method.params.map fun (name, type) => .word name :: .punct ':' :: type
  .word method.name :: method.generics ++
    Code.within .round (Code.commas (method.receiver.codes ++ params)) ++
    (match method.result with | none => [] | some type => Code.sign ['-', '>'] ++ type)

def Method.code (method : Method) : Code :=
  match method.body with
  | some body =>
    method.attrs.flatten ++ (if method.isPublic then [.plain "pub"] else []) ++
      .plain "fn" :: method.head ++ Code.within .curly (Body.code .method body)
  | none => method.attrs.flatten ++ .plain "fn" :: method.head ++ [.punct ';']

def FieldDecl.code (field : FieldDecl) : Code :=
  field.attrs.flatten ++ .word field.name :: .punct ':' :: field.type

def VariantDecl.code (variant : VariantDecl) : Code :=
  variant.attrs.flatten ++ .word variant.name :: Code.within .round variant.payload

def TypeShape.word : TypeShape → String
  | struct _ => "struct"
  | enum _ => "enum"
  | trait _ => "trait"

def TypeShape.content : TypeShape → Code
  | struct fields => Code.commas (fields.map FieldDecl.code)
  | enum variants => Code.commas (variants.map VariantDecl.code)
  | trait methods => methods.flatMap Method.code

def ImplDecl.code (impl : ImplDecl) (type : Ident) : Code :=
  impl.attrs.flatten ++ .plain "impl" :: impl.trait ++ [.plain "for", .word type] ++
    Code.within .curly (impl.items.flatten ++ impl.methods.flatMap Method.code)

namespace TypeDecl

def code (decl : TypeDecl) : Code :=
  decl.attrs.flatten ++ decl.vis ++ [.plain decl.shape.word, .word decl.name] ++
    Code.within .curly decl.shape.content ++
    (if decl.inherent.isEmpty then []
      else [.plain "impl", .word decl.name] ++
        Code.within .curly (decl.inherent.flatMap Method.code)) ++
    decl.impls.flatMap fun impl => impl.code decl.name

def unit (decl : TypeDecl) : GeneratedUnit := ⟨decl.part, decl.placement, decl.name, decl.code⟩

end TypeDecl
end EntityGen
