import EntityGen.Grammar.Scan

/-! Declarations of a source file. Structs, enums and modules are taken apart as far as entity
specs can stand in them; every other item is kept as its tokens, with the name it declares. -/
namespace EntityGen

/-- A path without arguments, as it names an attribute or an option. -/
structure NamePath where
  leading : Bool
  names : List Ident
  deriving DecidableEq, Repr

def NamePath.code (path : NamePath) : Code :=
  (if path.leading then Code.sign [':', ':'] else []) ++
    ((path.names.map fun name => [Token.word name]).intersperse (Code.sign [':', ':'])).flatten

def NamePath.isWord (path : NamePath) (name : String) : Bool := path == ⟨false, [⟨name, false⟩]⟩

inductive AttributeArgs where
  | none
  /-- Bracketed arguments; `content` ends with their closing bracket. -/
  | list (d : Delimiter) (content : List Lexeme)
  /-- A value behind an equals sign, and the place of the sign. -/
  | value (equals : Pos)
  deriving DecidableEq, Repr

structure Attribute where
  /-- The attribute belongs to what it stands in. -/
  inner : Bool
  path : NamePath
  args : AttributeArgs
  code : Code
  pos : Pos
  pathPos : Pos
  deriving DecidableEq, Repr

structure Field where
  attrs : List Attribute
  name : Ident
  namePos : Pos
  ty : Ty
  tyPos : Pos

/-- The fields of a struct: named ones, or any other form. -/
inductive Fields where
  | named (fields : List Field)
  | other

structure Struct where
  attrs : List Attribute
  vis : Code
  name : Ident
  namePos : Pos
  /-- Where the angle bracket stands that opens generic parameters, if there are some. -/
  generics : Option Pos
  /-- A where clause is written. -/
  bounded : Bool
  fields : Fields
  code : Code

structure Enum where
  attrs : List Attribute
  name : Ident
  namePos : Pos
  pos : Pos
  code : Code

/-- All that is written of a module except for its items. -/
structure ModuleHead where
  attrs : List Attribute
  vis : Code
  /-- The word that marks the module as not safe. -/
  marker : Code
  name : Ident
  namePos : Pos

inductive Item where
  | struct (decl : Struct)
  | enum (decl : Enum)
  /-- A module; one without a body has no items. -/
  | module (head : ModuleHead) (items : Option (List Item))
  /-- Any other item, with the name that it declares in its module, if it does. -/
  | other (name : Option (Ident × Pos)) (code : Code)

/-- The name that an item declares and where it stands. -/
def Item.declared? : Item → Option (Ident × Pos)
  | struct decl => some (decl.name, decl.namePos)
  | enum decl => some (decl.name, decl.namePos)
  | module head _ => some (head.name, head.namePos)
  | other name _ => name

def ModuleHead.opening (head : ModuleHead) : Code :=
  (head.attrs.filter fun attr => !attr.inner).flatMap Attribute.code ++ head.vis ++ head.marker ++
    [.plain "mod", .word head.name]

def ModuleHead.around (head : ModuleHead) (body : Code) : Code :=
  head.opening ++
    Code.within .curly ((head.attrs.filter Attribute.inner).flatMap Attribute.code ++ body)

mutual

def Item.code : Item → Code
  | .struct decl => decl.code
  | .enum decl => decl.code
  | .module head none => head.opening ++ [.punct ';']
  | .module head (some items) => head.around (Item.codes items)
  | .other _ code => code

def Item.codes : List Item → Code
  | [] => []
  | item :: rest => item.code ++ Item.codes rest

end

end EntityGen
