import EntityGen.Grammar.TypeRules

/-! The rules of patterns, expressions and statements. They decide where such code ends and
whether it is well formed; of what they pass, only the types are kept apart from the tokens. -/
namespace EntityGen.Rules
open Scan

def patterns (g : Rules) : Scan Unit := do
  discard <| optionalSign "|"
  g.pattern
  repeated do
    let rest ← ahead
    if Ahead.sign "|" rest && !Ahead.signs ["||", "|="] rest then
      discard take
      g.pattern
      return true
    else return false

def rangeEnd (g : Rules) : Scan Unit := do
  let rest ← ahead
  if Ahead.literal rest then literal
  else if Ahead.sign "<" rest then discard <| qualifiedPath g true
  else if Ahead.word "const" rest then discard take; g.block
  else if Ahead.anyWord rest || Ahead.sign "::" rest then
    if !Ahead.words ["if", "in"] rest then discard <| path g true

def patternRange (g : Rules) : Scan Unit := do
  if !Ahead.sign ".." (← ahead) then return
  if !(← optionalSign "..=") && !(← optionalSign "...") then expectSign ".."
  rangeEnd g

def fieldPattern (g : Rules) : Scan Unit := do
  discard <| attributes g
  let rest ← ahead
  if Ahead.sign ".." rest then expectSign ".."
  else if Ahead.sign ":" rest.tail && !Ahead.sign "::" rest.tail then
    discard take
    expectSign ":"
    patterns g
  else
    discard <| optionalWord "box"
    discard <| optionalWord "ref"
    discard <| optionalWord "mut"
    discard ident

def pathPattern (g : Rules) : Scan Unit := do
  if Ahead.sign "<" (← ahead) then discard <| qualifiedPath g true
  else
    let path ← path g true
    let rest ← ahead
    if Ahead.sign "!" rest && !Ahead.sign "!=" rest && isPlainPath path.segments then
      expectSign "!"
      discard tree
      return
  let rest ← ahead
  if Ahead.opening .curly rest then within .curly (separated "," (fieldPattern g))
  else if Ahead.opening .round rest then within .round (separated "," (patterns g))
  else patternRange g

def namePattern (g : Rules) : Scan Unit := do
  discard <| optionalWord "ref"
  discard <| optionalWord "mut"
  if !(← optionalWord "self") then discard ident
  if ← optionalSign "@" then g.pattern

def onePattern (g : Rules) : Scan Unit := do
  let rest ← ahead
  let behind := rest.tail
  if (Ahead.ident rest && (Ahead.signs ["::", "!", ".."] behind || Ahead.opening .curly behind ||
        Ahead.opening .round behind)) || (Ahead.word "self" rest && Ahead.sign "::" behind) ||
      Ahead.signs ["::", "<"] rest || Ahead.words ["Self", "super", "crate"] rest then
    pathPattern g
  else if Ahead.word "_" rest then discard take
  else if Ahead.word "box" rest then discard take; g.pattern
  else if Ahead.word "const" rest then discard take; g.block
  else if Ahead.literal rest then literal; patternRange g
  else if Ahead.words ["ref", "mut", "self"] rest || Ahead.ident rest then namePattern g
  else if Ahead.sign "&" rest then
    discard take
    discard <| optionalWord "mut"
    g.pattern
  else if Ahead.opening .round rest then within .round (separated "," (patterns g))
  else if Ahead.opening .square rest then within .square (separated "," (patterns g))
  else if Ahead.sign ".." rest then patternRange g
  else fail "expected a pattern"

/-- Infix operators with their levels, longer signs first. -/
def operators : List (String × Nat) :=
  [("<<=", 1), (">>=", 1), ("+=", 1), ("-=", 1), ("*=", 1), ("/=", 1), ("%=", 1), ("^=", 1),
    ("&=", 1), ("|=", 1), ("&&", 4), ("||", 3), ("<<", 9), (">>", 9), ("==", 5), ("<=", 5),
    ("!=", 5), (">=", 5), ("+", 10), ("-", 10), ("*", 11), ("/", 11), ("%", 11), ("^", 7),
    ("&", 8), ("|", 6), ("<", 5), (">", 5)]

def operator? (rest : List Lexeme) : Option (String × Nat) :=
  operators.find? fun (sign, _) => Ahead.sign sign rest

def assignAhead (rest : List Lexeme) : Bool := Ahead.sign "=" rest && !Ahead.sign "=>" rest

/-- The level of the operator that stands ahead; zero if none does. -/
def levelAhead (rest : List Lexeme) : Nat :=
  match operator? rest with
  | some (_, level) => level
  | none =>
    if assignAhead rest then 1 else if Ahead.sign ".." rest then 2
    else if Ahead.word "as" rest then 12 else 0

def rightOperand (g : Rules) (literals : Bool) (level : Nat) : Scan Unit := do
  let right ← g.operand literals
  discard <| folded (fun right => do
    let next := levelAhead (← ahead)
    if level < next || (next == level && level == 1) then
      let before := (← ahead).length
      let right ← g.climb literals next right
      if (← ahead).length == before then return none
      return some right
    else return none) right

/-- A range needs no end where nothing that begins an expression stands. -/
def rangeStops (literals : Bool) (rest : List Lexeme) : Bool :=
  Ahead.finished rest || Ahead.signs [",", ";", "?", "=>", "=", "+", "/", "%", "^", ">"] rest ||
    (Ahead.sign "." rest && !Ahead.sign ".." rest) || Ahead.word "as" rest ||
    (!literals && Ahead.opening .curly rest)

def rangeBehind (g : Rules) (literals : Bool) : Scan Unit := do
  if ← optionalSign "..=" then rightOperand g literals 2
  else
    if !(← optionalSign "...") then expectSign ".."
    if !rangeStops literals (← ahead) then rightOperand g literals 2

def castStops (rest : List Lexeme) : Bool :=
  (Ahead.sign "." rest && !Ahead.sign ".." rest) || Ahead.sign "?" rest ||
    Ahead.opening .square rest || Ahead.opening .round rest

def climbOnce (g : Rules) (literals : Bool) (level : Nat) (left : Shape) :
    Scan (Option Shape) := do
  let rest ← ahead
  if left == .range then return none
  match operator? rest with
  | some (sign, found) =>
    if found < level then return none
    if found == 5 && left == .comparison then
      failAt "comparison operators cannot be chained"
    expectSign sign
    rightOperand g literals found
    return some (if found == 5 then .comparison else .plain)
  | none =>
    if level ≤ 1 && assignAhead rest then
      discard take
      rightOperand g literals 1
      return some .plain
    else if level ≤ 2 && Ahead.sign ".." rest then
      rangeBehind g literals
      return some .range
    else if level ≤ 12 && Ahead.word "as" rest then
      discard take
      typeHere g false
      if castStops (← ahead) then fail "casts cannot be followed by this"
      return some .plain
    else return none

def climbFrom (g : Rules) (literals : Bool) (level : Nat) (left : Shape) : Scan Shape :=
  folded (climbOnce g literals level) left

def arguments (g : Rules) : Scan Unit :=
  within .round (separated "," (discard <| g.expr true))

/-- What stands behind a point: `await`, a field, or a method with its arguments. -/
def member (g : Rules) : Scan Unit := do
  expectSign "."
  let rest ← ahead
  if (Ahead.literalText? rest).any Ahead.isNumber then discard take
  else if Ahead.word "await" rest then discard take
  else
    if !Ahead.ident rest then fail "expected identifier or integer"
    discard ident
    let rest ← ahead
    if Ahead.sign "::" rest then
      discard <| angleArgs g
      arguments g
    else if Ahead.opening .round rest then arguments g

def steps (g : Rules) (start : Shape) : Scan Shape := folded (fun shape => do
  let rest ← ahead
  if Ahead.opening .round rest then
    arguments g
    return some .plain
  else if Ahead.sign "." rest && !Ahead.sign ".." rest && shape != .range then
    member g
    return some .plain
  else if Ahead.opening .square rest then
    within .square (discard <| g.expr true)
    return some .plain
  else if Ahead.sign "?" rest && shape != .range then
    discard take
    return some .plain
  else return none) start

def fieldValue (g : Rules) : Scan Unit := do
  discard <| attributes g
  if Ahead.sign ".." (← ahead) then
    expectSign ".."
    if !Ahead.finished (← ahead) then discard <| g.expr true
  else
    let numbered := (Ahead.literalText? (← ahead)).any Ahead.isNumber
    if numbered then discard take else discard ident
    let rest ← ahead
    if numbered || (Ahead.sign ":" rest && !Ahead.sign "::" rest) then
      expectSign ":"
      discard <| g.expr true

def pathExpr (g : Rules) (literals : Bool) : Scan Shape := do
  let qualified := Ahead.sign "<" (← ahead)
  let segments ← if qualified then qualifiedPath g true else Path.segments <$> path g true
  let rest ← ahead
  if !qualified && Ahead.sign "!" rest && !Ahead.sign "!=" rest && isPlainPath segments then
    expectSign "!"
    return .invocation (← tree)
  if literals && Ahead.opening .curly rest then within .curly (separated "," (fieldValue g))
  return .plain

def braced (g : Rules) (body : Scan Unit) : Scan Unit := within .curly do
  discard <| innerAttributes g
  body

def arm (g : Rules) : Scan Unit := do
  discard <| attributes g
  patterns g
  if ← optionalWord "if" then discard <| g.expr true
  expectSign "=>"
  let shape ← g.statement
  if shape == .block || Ahead.finished (← ahead) then discard <| optionalSign ","
  else expectSign ","

def conditional (g : Rules) : Scan Unit := repeated do
  expectWord "if"
  discard <| g.expr false
  g.block
  if !(← optionalWord "else") then return false
  if Ahead.word "if" (← ahead) then return true
  g.block
  return false

def blockExpr (g : Rules) : Scan Unit := do
  let rest ← ahead
  if Ahead.lifetime rest then
    discard take
    expectSign ":"
  let rest ← ahead
  if Ahead.word "if" rest then conditional g
  else if Ahead.word "while" rest then
    discard take
    discard <| g.expr false
    g.block
  else if Ahead.word "for" rest then
    discard take
    patterns g
    expectWord "in"
    discard <| g.expr false
    g.block
  else if Ahead.word "match" rest then
    discard take
    discard <| g.expr false
    braced g <| repeated do
      if Ahead.finished (← ahead) then return false
      arm g
      return true
  else if Ahead.words ["loop", "unsafe", "const", "try"] rest then
    discard take
    g.block
  else g.block

def blockAhead (rest : List Lexeme) : Bool :=
  Ahead.opening .curly rest || Ahead.words ["if", "while", "match", "loop", "unsafe"] rest ||
    Ahead.lifetime rest || (Ahead.words ["const", "try"] rest && Ahead.opening .curly rest.tail) ||
    (Ahead.word "for" rest && !(Ahead.sign "<" rest.tail &&
      (Ahead.lifetime (rest.drop 2) || Ahead.sign ">" (rest.drop 2))))

def closure (g : Rules) (literals : Bool) : Scan Unit := do
  binder g
  for name in ["const", "static", "async", "move"] do discard <| optionalWord name
  expectSign "|"
  repeated do
    if Ahead.sign "|" (← ahead) then return false
    discard <| attributes g
    g.pattern
    if ← optionalSign ":" then typeHere g true
    if Ahead.sign "|" (← ahead) then return false
    expectSign ","
    return true
  expectSign "|"
  if Ahead.sign "->" (← ahead) then
    result g true
    g.block
  else discard <| g.expr literals

def closureAhead (rest : List Lexeme) : Bool :=
  Ahead.sign "|" rest || Ahead.words ["move", "static"] rest ||
    (Ahead.word "for" rest && Ahead.sign "<" rest.tail) ||
    (Ahead.word "const" rest && !Ahead.opening .curly rest.tail) ||
    (Ahead.word "async" rest && (Ahead.sign "|" rest.tail || Ahead.word "move" rest.tail))

def leaving (g : Rules) (literals : Bool) : Scan Unit := do
  let rest ← ahead
  if !(Ahead.finished rest || Ahead.signs [",", ";", "=>"] rest ||
      (!literals && Ahead.opening .curly rest)) then
    discard <| g.expr literals

def atom (g : Rules) (literals : Bool) : Scan Shape := do
  let rest ← ahead
  if (Ahead.literalText? rest).isSome || Ahead.words ["true", "false"] rest then
    discard take
    return .plain
  else if Ahead.word "async" rest && (Ahead.opening .curly rest.tail ||
      (Ahead.word "move" rest.tail && Ahead.opening .curly (rest.drop 2))) then
    discard take
    discard <| optionalWord "move"
    g.block
    return .plain
  else if blockAhead rest then
    blockExpr g
    return .block
  else if closureAhead rest then
    closure g literals
    return .plain
  else if Ahead.ident rest || Ahead.signs ["::", "<"] rest ||
      Ahead.words ["self", "Self", "super", "crate"] rest ||
      (Ahead.word "try" rest && Ahead.signs ["!", "::"] rest.tail) then
    pathExpr g literals
  else if Ahead.opening .round rest then
    within .round (separated "," (discard <| g.expr true))
    return .plain
  else if Ahead.opening .square rest then
    within .square do
      if Ahead.finished (← ahead) then return
      discard <| g.expr true
      if ← optionalSign ";" then discard <| g.expr true
      else if ← optionalSign "," then separated "," (discard <| g.expr true)
    return .plain
  else if Ahead.word "continue" rest then
    discard take
    if Ahead.lifetime (← ahead) then discard take
    return .plain
  else if Ahead.word "break" rest then
    discard take
    if Ahead.lifetime (← ahead) then discard take
    leaving g literals
    return .plain
  else if Ahead.words ["return", "yield", "become"] rest then
    discard take
    leaving g literals
    return .plain
  else if Ahead.word "let" rest then
    discard take
    patterns g
    expectSign "="
    discard <| g.climb false 5 (← g.operand false)
    return .plain
  else if Ahead.sign ".." rest then
    rangeBehind g literals
    return .range
  else if Ahead.word "_" rest then
    discard take
    return .plain
  else fail "expected an expression"

def operandFrom (g : Rules) (literals : Bool) : Scan Shape := do
  discard <| attributes g
  let rest ← ahead
  if Ahead.sign "&" rest then
    discard take
    let rest ← ahead
    if Ahead.word "raw" rest && Ahead.words ["mut", "const"] rest.tail then
      takeAll 2
    else discard <| optionalWord "mut"
    discard <| g.operand literals
    return .plain
  else if Ahead.signs ["*", "!", "-"] rest then
    discard take
    discard <| g.operand literals
    return .plain
  else
    let shape ← atom g literals
    let length := (← ahead).length
    let stepped ← steps g shape
    if (← ahead).length == length then return shape
    return if stepped == .block then .plain else stepped

def exprFrom (g : Rules) (literals : Bool) : Scan Shape := do
  climbFrom g literals 0 (← operandFrom g literals)

/-- An expression at the place of a statement or of an arm: one that ends in its own block ends
there unless a member of it is taken. -/
def statementExpr (g : Rules) : Scan Shape := do
  discard <| attributes g
  let rest ← ahead
  if blockAhead rest then
    blockExpr g
    let rest ← ahead
    if (Ahead.sign "." rest && !Ahead.sign ".." rest) || Ahead.sign "?" rest then
      climbFrom g true 0 (← steps g .plain)
    else return .block
  else exprFrom g true

end EntityGen.Rules
