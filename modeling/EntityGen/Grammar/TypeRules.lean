import EntityGen.Grammar.Declaration

/-! The rules of paths, bounds and types. Rules that call each other all get the others through
`Rules`, so that each is a plain definition; the recursion is tied in one place. -/
namespace EntityGen

/-- What an expression is, as far as the tokens behind it depend on that. -/
inductive Shape where
  | plain
  /-- A range, which is no operand of an operator to its right. -/
  | range
  /-- A comparison, which takes no further comparison. -/
  | comparison
  /-- Ends in its own block and is a statement without a semicolon. -/
  | block
  /-- A call of a code-producing name, with its brackets. -/
  | invocation (d : Delimiter)
  deriving DecidableEq, Repr

/-- The rules that others call on smaller stretches of code. -/
structure Rules where
  /-- A type; `plus` admits several bounds without parentheses. -/
  ty (plus : Bool) : Scan Ty
  /-- Bounds; `plus` admits more than one. -/
  bounds (plus : Bool) : Scan Unit
  /-- An expression; `literals` admits struct literals at its head. -/
  expr (literals : Bool) : Scan Shape
  /-- An expression up to its first infix operator. -/
  operand (literals : Bool) : Scan Shape
  /-- The operators of at least a level behind an operand. -/
  climb (literals : Bool) (level : Nat) (left : Shape) : Scan Shape
  /-- An expression as a statement or an arm: one that ends in its own block may end there. -/
  statement : Scan Shape
  pattern : Scan Unit
  block : Scan Unit
  item : Scan Item
  useTree : Scan Unit

/-- Rules that accept nothing. -/
def Rules.exhausted : Rules where
  ty _ := Scan.fail "nested too deeply"
  bounds _ := Scan.fail "nested too deeply"
  expr _ := Scan.fail "nested too deeply"
  operand _ := Scan.fail "nested too deeply"
  climb _ _ _ := Scan.fail "nested too deeply"
  statement := Scan.fail "nested too deeply"
  pattern := Scan.fail "nested too deeply"
  block := Scan.fail "nested too deeply"
  item := Scan.fail "nested too deeply"
  useTree := Scan.fail "nested too deeply"

namespace Rules
open Scan

def typeHere (g : Rules) (plus : Bool) : Scan Unit := do emit [.ty (← g.ty plus)]

def constant (g : Rules) : Scan Unit := do
  if Ahead.opening .curly (← ahead) then g.block else literal

def nameAhead (rest : List Lexeme) : Bool :=
  Ahead.ident rest || Ahead.words ["super", "self", "Self", "crate"] rest

/-- One more name of a path, unless it has ended: `more` says that a double colon or nothing stands
before it. -/
def nextPathName : List Ident × Bool → Scan (Option (List Ident × Bool))
  | (names, more) => do
    if !more then return none
    if !nameAhead (← ahead) then fail "expected path segment after `::`"
    let name ← anyWord
    return some (names ++ [name], ← optionalSign "::")

def namePath : Scan NamePath := do
  let leading ← optionalSign "::"
  if !nameAhead (← ahead) then discard ident
  let names ← folded nextPathName ([], true)
  return ⟨leading, names.1⟩

/-- The path that names an attribute or an option. Of the keywords one is admitted, on its own. -/
def metaPath : Scan NamePath := do
  if Ahead.word "unsafe" (← ahead) then return ⟨false, [← anyWord]⟩ else namePath

def metaValue (g : Rules) : Scan Unit := do
  let rest ← ahead
  if Ahead.sign "#" rest && Ahead.opening .square rest.tail then
    fail "unexpected attribute inside of attribute"
  discard <| g.expr true

def attributeArgs (g : Rules) : Scan AttributeArgs := do
  let rest ← ahead
  if Ahead.sign "=" rest then
    discard take
    metaValue g
    return .value (Ahead.pos rest)
  else match rest with
    | ⟨.opening d, _, _⟩ :: content =>
      discard tree
      return .list d (content.take (Ahead.length 0 content + 1))
    | _ => return .none

def oneAttribute (g : Rules) (inner : Bool) : Scan Attribute := do
  let pos := Ahead.pos (← ahead)
  let ((path, pathPos, args), pieces) ← keeping do
    expectSign "#"
    if inner then expectSign "!"
    within .square do
      let pathPos := Ahead.pos (← ahead)
      let path ← metaPath
      return (path, pathPos, ← attributeArgs g)
  return ⟨inner, path, args, Piece.codes pieces, pos, pathPos⟩

def attributes (g : Rules) : Scan (List Attribute) := folded (fun attrs => do
  if Ahead.sign "#" (← ahead) then return some (attrs ++ [← oneAttribute g false])
  else return none) []

def innerAttributes (g : Rules) : Scan (List Attribute) := folded (fun attrs => do
  let rest ← ahead
  if Ahead.sign "#" rest && Ahead.sign "!" rest.tail then
    return some (attrs ++ [← oneAttribute g true])
  else return none) []

def argument (g : Rules) : Scan Arg := do
  let rest ← ahead
  if Ahead.lifetime rest && !Ahead.sign "+" rest.tail then return .lifetime (← lifetime)
  if Ahead.literal rest || Ahead.opening .curly rest then
    return .other (← keeping (constant g)).2
  let ty ← g.ty true
  match ty with
  | .path false [segment] =>
    let rest ← ahead
    if Ahead.sign "=" rest then
      let ((), pieces) ← keeping do
        emit segment.pieces
        discard take
        let rest ← ahead
        if Ahead.literal rest || Ahead.opening .curly rest then constant g else typeHere g true
      return .other pieces
    else if Ahead.sign ":" rest then
      let ((), pieces) ← keeping do
        emit segment.pieces
        discard take
        if !Ahead.signs [",", ">"] (← ahead) then g.bounds true
      return .other pieces
    else
      emit [.ty ty]
      return .ty ty
  | _ =>
    emit [.ty ty]
    return .ty ty

def angleArgs (g : Rules) : Scan Args := do
  let turbofish ← optionalSign "::"
  expectSign "<"
  let (args, trailing, _) ← folded (fun (args, _, more) => do
      if !more || Ahead.sign ">" (← ahead) then return none
      let arg ← argument g
      if Ahead.sign ">" (← ahead) then return some (args ++ [arg], false, false)
      expectSign ","
      return some (args ++ [arg], true, true)) ([], false, true)
  expectSign ">"
  return .angle turbofish args (trailing && !args.isEmpty)

/-- One segment of a path. In expressions arguments stand behind a double colon only. -/
def segment (g : Rules) (inExpr : Bool) : Scan Segment := do
  if Ahead.words ["super", "self", "crate", "try"] (← ahead) then return .bare (← anyWord)
  let name ← if Ahead.word "Self" (← ahead) then anyWord else ident
  let rest ← ahead
  if (!inExpr && Ahead.sign "<" rest && !Ahead.sign "<=" rest) ||
      (Ahead.sign "::" rest && Ahead.sign "<" (rest.drop 2)) then
    return ⟨name, ← angleArgs g⟩
  else return .bare name

def moreSegments (g : Rules) (inExpr : Bool) (segments : List Segment) :
    Scan (List Segment) := folded (fun segments => do
  let rest ← ahead
  if Ahead.sign "::" rest && !Ahead.opening .round (rest.drop 2) then
    expectSign "::"
    return some (segments ++ [← segment g inExpr])
  else return none) segments

def path (g : Rules) (inExpr : Bool) : Scan Path := do
  let leading ← optionalSign "::"
  let first ← segment g inExpr
  return ⟨leading, ← moreSegments g inExpr [first]⟩

/-- A path with a qualified self: a type, perhaps a trait, and names below them. -/
def qualifiedPath (g : Rules) (inExpr : Bool) : Scan (List Segment) := do
  expectSign "<"
  typeHere g true
  if ← optionalWord "as" then discard <| path g false
  expectSign ">"
  expectSign "::"
  let first ← segment g inExpr
  folded (fun segments => do
    if ← optionalSign "::" then return some (segments ++ [← segment g inExpr])
    else return none) [first]

def isPlainPath (segments : List Segment) : Bool :=
  segments.all fun segment => segment.args matches .none

def result (g : Rules) (plus : Bool) : Scan Unit := do
  if ← optionalSign "->" then typeHere g plus

/-- Parenthesised arguments with their result. The path of a bound takes them, no other path does:
`Fn(i64) -> u8` is a type only behind `dyn` or `impl`. -/
def roundArgs (g : Rules) : Scan Unit := do
  within .round (separated "," (typeHere g true))
  result g false

def lastIsBare (segments : List Segment) : Bool :=
  segments.getLast?.any fun segment => segment.args matches .none

def roundAhead (rest : List Lexeme) : Bool :=
  Ahead.opening .round rest || (Ahead.sign "::" rest && Ahead.opening .round (rest.drop 2))

def binder (g : Rules) : Scan Unit := do
  if !Ahead.word "for" (← ahead) then return
  discard take
  expectSign "<"
  repeated do
    if Ahead.sign ">" (← ahead) then return false
    discard <| attributes g
    discard lifetime
    if ← optionalSign ":" then
      repeated do
        if !Ahead.lifetime (← ahead) then return false
        discard lifetime
        optionalSign "+"
    if Ahead.sign ">" (← ahead) then return false
    expectSign ","
    return true
  expectSign ">"

def boundAhead (rest : List Lexeme) : Bool :=
  Ahead.anyWord rest || Ahead.sign "::" rest || Ahead.sign "?" rest || Ahead.lifetime rest ||
    Ahead.opening .round rest || Ahead.sign "~" rest

def traitBound (g : Rules) : Scan Unit := do
  binder g
  if ← optionalSign "~" then expectWord "const"
  else if Ahead.word "const" (← ahead) then discard take
  if ← optionalSign "?" then binder g
  let path ← path g false
  if lastIsBare path.segments && roundAhead (← ahead) then
    discard <| captured (optionalSign "::")
    roundArgs g

def bound (g : Rules) : Scan Unit := do
  let rest ← ahead
  if Ahead.lifetime rest then discard lifetime
  else if Ahead.opening .round rest then within .round (traitBound g)
  else traitBound g

/-- Bounds with a plus between them; `plus` admits more than one. -/
def boundList (g : Rules) (plus : Bool) : Scan Unit := repeated do
  bound g
  if !(plus && Ahead.sign "+" (← ahead)) then return false
  expectSign "+"
  return boundAhead (← ahead)

def traitBounds (g : Rules) (plus : Bool) : Scan Unit := do
  let ((), pieces) ← keeping (g.bounds plus)
  let isTrait : Piece → Bool
    | .token (.lifetime _) => false
    | .token (.punct c) => c != '+'
    | _ => true
  if !pieces.any isTrait then fail "at least one trait must be specified"

/-- How the tokens of a type are kept. -/
inductive TypeForm where
  | known (ty : Ty)
  | composite
  | implTrait
  | invocation

def functionType (g : Rules) : Scan Unit := do
  discard <| optionalWord "unsafe"
  if ← optionalWord "extern" then
    if Ahead.string (← ahead) then discard take
  expectWord "fn"
  within .round <| separated "," do
    discard <| attributes g
    let rest ← ahead
    if (Ahead.ident rest || Ahead.words ["_", "self"] rest) && Ahead.sign ":" rest.tail &&
        !Ahead.sign "::" rest.tail then
      discard anyWord
      expectSign ":"
    if Ahead.sign "..." (← ahead) then expectSign "..." else typeHere g true
  result g false

inductive Parenthesised where
  | tuple
  | bounds
  | one (ty : Ty)

def roundType (g : Rules) (plus : Bool) : Scan TypeForm := do
  let inside ← within .round do
    let rest ← ahead
    if Ahead.finished rest then return Parenthesised.tuple
    if Ahead.lifetime rest then
      let ((), pieces) ← keeping (g.bounds true)
      return .one (.composite pieces)
    if Ahead.sign "?" rest then
      traitBound g
      return .bounds
    let first ← g.ty true
    emit [.ty first]
    if ← optionalSign "," then
      separated "," (typeHere g true)
      return .tuple
    return .one first
  match inside with
  | .tuple => return .composite
  | .bounds =>
    if plus then if ← optionalSign "+" then g.bounds true
    return .composite
  | .one ty =>
    if plus && Ahead.sign "+" (← ahead) && ty matches .path .. then
      expectSign "+"
      g.bounds true
      return .composite
    else return .known (.paren ty)

def pathType (g : Rules) (plus : Bool) : Scan TypeForm := do
  if Ahead.sign "<" (← ahead) then
    discard <| qualifiedPath g false
    return .composite
  let ⟨leading, segments⟩ ← path g false
  let rest ← ahead
  if Ahead.sign "!" rest && !Ahead.sign "!=" rest && isPlainPath segments then
    expectSign "!"
    discard tree
    return .invocation
  if plus && Ahead.sign "+" rest then
    expectSign "+"
    if boundAhead (← ahead) then g.bounds true
    return .composite
  return .known (.path leading segments)

def typeForm (g : Rules) (plus : Bool) : Scan TypeForm := do
  let pathAhead (rest : List Lexeme) := Ahead.ident rest ||
    Ahead.words ["super", "self", "Self", "crate"] rest || Ahead.sign "::" rest
  let functionAhead (rest : List Lexeme) := Ahead.words ["fn", "unsafe", "extern"] rest
  let rest ← ahead
  if Ahead.word "for" rest then
    binder g
    let rest ← ahead
    if functionAhead rest then
      functionType g
      return .composite
    if !pathAhead rest || Ahead.sign "::" rest then fail "expected type"
    match ← pathType g plus with
    | .known _ => return .composite
    | form => return form
  if Ahead.opening .round rest then roundType g plus
  else if functionAhead rest then
    functionType g
    return .composite
  else if pathAhead rest || Ahead.sign "<" rest then pathType g plus
  else if Ahead.word "dyn" rest then
    discard take
    traitBounds g plus
    return .composite
  else if Ahead.opening .square rest then
    within .square do
      typeHere g true
      if ← optionalSign ";" then discard <| g.expr true
    return .composite
  else if Ahead.sign "*" rest then
    discard take
    if !Ahead.words ["const", "mut"] (← ahead) then fail "expected `const` or `mut`"
    discard take
    typeHere g false
    return .composite
  else if Ahead.sign "&" rest then
    discard take
    if Ahead.lifetime (← ahead) then discard take
    discard <| optionalWord "mut"
    typeHere g false
    return .composite
  else if Ahead.sign "!" rest && !Ahead.sign "!=" rest then
    discard take
    return .composite
  else if Ahead.word "impl" rest then
    discard take
    traitBounds g plus
    return .implTrait
  else if Ahead.word "_" rest then
    discard take
    return .known .inferred
  else if Ahead.lifetime rest then
    traitBounds g plus
    return .composite
  else fail "expected type"

/-- A type. Its tokens are not put into the record. -/
def type (g : Rules) (plus : Bool) : Scan Ty := do
  let (form, pieces) ← captured (typeForm g plus)
  return match form with
    | .known ty => ty
    | .composite => .composite pieces
    | .implTrait => .implTrait pieces
    | .invocation => .invocation (Piece.codes pieces)

end Rules
end EntityGen
