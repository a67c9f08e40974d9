import EntityGen.Grammar.ExprRules

/-! The rules of statements and items, and the knot that ties all rules. -/
namespace EntityGen.Rules
open Scan

def visibility : Scan Unit := do
  if !(← optionalWord "pub") then return
  let rest ← ahead
  if !Ahead.opening .round rest then return
  let behind := rest.tail
  if Ahead.words ["crate", "self", "super"] behind && Ahead.finished behind.tail then
    within .round (discard take)
  else if Ahead.word "in" behind then
    within .round do
      discard take
      discard namePath

/-- Generic parameters. Empty brackets are dropped, and only others have a place. -/
def generics (g : Rules) : Scan (Option Pos) := do
  let rest ← ahead
  if !Ahead.sign "<" rest then return none
  let (any, pieces) ← captured do
    expectSign "<"
    let any := !Ahead.sign ">" (← ahead)
    repeated do
      if Ahead.sign ">" (← ahead) then return false
      discard <| attributes g
      if Ahead.lifetime (← ahead) then
        discard take
        if ← optionalSign ":" then
          repeated do
            if !Ahead.lifetime (← ahead) then return false
            discard take
            optionalSign "+"
      else if ← optionalWord "const" then
        discard ident
        expectSign ":"
        typeHere g true
        if ← optionalSign "=" then
          let rest ← ahead
          if Ahead.literal rest || Ahead.opening .curly rest then constant g else discard ident
      else
        discard ident
        if ← optionalSign ":" then
          if !Ahead.signs [",", ">", "="] (← ahead) then g.bounds true
        if ← optionalSign "=" then typeHere g true
      if Ahead.sign ">" (← ahead) then return false
      expectSign ","
      return true
    expectSign ">"
    return any
  if any then
    emit pieces
    return some (Ahead.pos rest)
  else return none

/-- A where clause; says whether one is written. One without predicates is dropped. -/
def whereClause (g : Rules) : Scan Bool := do
  if !Ahead.word "where" (← ahead) then return false
  let stops (rest : List Lexeme) := Ahead.finished rest || Ahead.opening .curly rest ||
    Ahead.signs [",", ";", "="] rest || (Ahead.sign ":" rest && !Ahead.sign "::" rest)
  let (any, pieces) ← captured do
    discard take
    let any := !stops (← ahead)
    repeated do
      if stops (← ahead) then return false
      if Ahead.lifetime (← ahead) && Ahead.sign ":" (← ahead).tail then
        discard take
        expectSign ":"
        repeated do
          if !Ahead.lifetime (← ahead) then return false
          discard take
          optionalSign "+"
      else
        binder g
        typeHere g true
        expectSign ":"
        if !stops (← ahead) then g.bounds true
      optionalSign ","
    return any
  if any then emit pieces
  return true

def functionAhead (rest : List Lexeme) : Bool :=
  let skipWord (name : String) (rest : List Lexeme) :=
    if Ahead.word name rest then rest.tail else rest
  let rest := skipWord "unsafe" (skipWord "async" (skipWord "const" rest))
  let rest := if Ahead.word "extern" rest then
      if Ahead.string rest.tail then rest.drop 2 else rest.tail
    else rest
  Ahead.word "fn" rest

def receiver (g : Rules) : Scan Unit := do
  let reference ← optionalSign "&"
  if reference && Ahead.lifetime (← ahead) then discard take
  discard <| optionalWord "mut"
  expectWord "self"
  if !reference then
    if ← optionalSign ":" then typeHere g true

def parameter (g : Rules) : Scan Unit := do
  discard <| attributes g
  if Ahead.sign "..." (← ahead) then expectSign "..."; return
  if (← attempt (receiver g)).isSome then return
  g.pattern
  expectSign ":"
  if Ahead.sign "..." (← ahead) then expectSign "..." else typeHere g true

def signature (g : Rules) : Scan (Ident × Pos) := do
  for name in ["const", "async", "unsafe"] do discard <| optionalWord name
  if ← optionalWord "extern" then
    if Ahead.string (← ahead) then discard take
  expectWord "fn"
  let pos := Ahead.pos (← ahead)
  let name ← ident
  discard <| generics g
  within .round (separated "," (parameter g))
  result g true
  discard <| whereClause g
  return (name, pos)

/-- A function with its body, or with a semicolon in its place; says whether there is a body. -/
def function (g : Rules) : Scan (Ident × Pos × Bool) := do
  let (name, pos) ← signature g
  if ← optionalSign ";" then return (name, pos, false)
  g.block
  return (name, pos, true)

/-- A constant; names that are declared have a value and no parameters of their own. -/
def constantItem (g : Rules) : Scan (Option (Ident × Pos)) := do
  expectWord "const"
  let pos := Ahead.pos (← ahead)
  let name ← if Ahead.word "_" (← ahead) then anyWord else ident
  let general ← generics g
  expectSign ":"
  typeHere g true
  let valued ← optionalSign "="
  if valued then discard <| g.expr true
  let bounded ← whereClause g
  expectSign ";"
  return if valued && general.isNone && !bounded then some (name, pos) else none

def staticItem (g : Rules) : Scan (Option (Ident × Pos)) := do
  expectWord "static"
  discard <| optionalWord "mut"
  let pos := Ahead.pos (← ahead)
  let name ← ident
  let typed ← optionalSign ":"
  if typed then typeHere g true
  let valued ← optionalSign "="
  if valued then discard <| g.expr true
  expectSign ";"
  return if typed && valued then some (name, pos) else none

def typeItem (g : Rules) : Scan (Option (Ident × Pos)) := do
  expectWord "type"
  let pos := Ahead.pos (← ahead)
  let name ← ident
  discard <| generics g
  let bounded ← optionalSign ":"
  if bounded then
    if !Ahead.signs ["=", ";"] (← ahead) && !Ahead.word "where" (← ahead) then g.bounds true
  discard <| whereClause g
  let valued ← optionalSign "="
  if valued then typeHere g true
  discard <| whereClause g
  expectSign ";"
  return if valued && !bounded then some (name, pos) else none

def invocationItem : Scan Unit := do
  discard namePath
  expectSign "!"
  if Ahead.anyWord (← ahead) then discard take
  let d ← tree
  if d != .curly then expectSign ";"

def associated (g : Rules) : Scan Unit := do
  discard <| attributes g
  visibility
  if Ahead.word "default" (← ahead) && !Ahead.sign "!" (← ahead).tail then discard take
  let rest ← ahead
  if functionAhead rest then discard <| function g
  else if Ahead.word "const" rest then discard <| constantItem g
  else if Ahead.word "type" rest then discard <| typeItem g
  else if Ahead.word "static" rest then discard <| staticItem g
  else invocationItem

def associatedItems (g : Rules) : Scan Unit := braced g <| repeated do
  if Ahead.finished (← ahead) then return false
  associated g
  return true

def namedField (g : Rules) : Scan Field := do
  let attrs ← attributes g
  visibility
  let namePos := Ahead.pos (← ahead)
  let name ← if Ahead.word "_" (← ahead) then anyWord else ident
  expectSign ":"
  let tyPos := Ahead.pos (← ahead)
  let ty ← g.ty true
  emit [.ty ty]
  return ⟨attrs, name, namePos, ty, tyPos⟩

def namedFields (g : Rules) : Scan (List Field) := within .curly (listed "," (namedField g))

def tupleFields (g : Rules) : Scan Unit := within .round <| separated "," do
  discard <| attributes g
  visibility
  typeHere g true

/-- The fields of a struct, and whether a where clause stands before or behind them. -/
def structFields (g : Rules) : Scan (Fields × Bool) := do
  let bounded ← whereClause g
  let rest ← ahead
  if Ahead.opening .curly rest then return (.named (← namedFields g), bounded)
  else if Ahead.opening .round rest && !bounded then
    tupleFields g
    let bounded ← whereClause g
    expectSign ";"
    return (.other, bounded)
  else
    expectSign ";"
    return (.other, bounded)

def variant (g : Rules) : Scan Unit := do
  discard <| attributes g
  discard <| captured visibility
  discard ident
  let rest ← ahead
  if Ahead.opening .curly rest then discard <| namedFields g
  else if Ahead.opening .round rest then tupleFields g
  if ← optionalSign "=" then discard <| g.expr true

/-- A trait behind its visibility; an alias of one declares no name. -/
def traitItem (g : Rules) : Scan (Option (Ident × Pos)) := do
  let plain := Ahead.word "trait" (← ahead)
  discard <| optionalWord "unsafe"
  discard <| optionalWord "auto"
  expectWord "trait"
  let pos := Ahead.pos (← ahead)
  let name ← ident
  discard <| generics g
  if plain then
    if ← optionalSign "=" then
      if !Ahead.sign ";" (← ahead) then g.bounds true
      discard <| whereClause g
      expectSign ";"
      return none
  if ← optionalSign ":" then
    if !Ahead.opening .curly (← ahead) && !Ahead.word "where" (← ahead) then g.bounds true
  discard <| whereClause g
  associatedItems g
  return some (name, pos)

def implItem (g : Rules) : Scan Unit := do
  discard <| optionalWord "default"
  discard <| optionalWord "unsafe"
  expectWord "impl"
  let rest ← ahead
  let behind := rest.tail
  if Ahead.sign "<" rest && (Ahead.signs [">", "#"] behind || Ahead.lifetime behind ||
      Ahead.word "const" behind || (Ahead.anyWord behind &&
        Ahead.signs [":", ",", ">", "="] behind.tail && !Ahead.sign "::" behind.tail)) then
    discard <| generics g
  discard <| optionalWord "const"
  discard <| optionalSign "!"
  typeHere g true
  if ← optionalWord "for" then typeHere g true
  discard <| whereClause g
  associatedItems g

def useTreeFrom (g : Rules) : Scan Unit := do
  let rest ← ahead
  if Ahead.sign "*" rest then discard take
  else if Ahead.opening .curly rest then
    within .curly <| separated "," do
      discard <| optionalSign "::"
      g.useTree
  else
    if Ahead.words ["self", "super", "crate", "try"] rest then discard take else discard ident
    if ← optionalSign "::" then g.useTree
    else if ← optionalWord "as" then
      if !(← optionalWord "_") then discard ident

/-- An item that is kept as its tokens, behind its attributes; gives the name it declares. -/
def otherItem (g : Rules) (visible : Bool) : Scan (Option (Ident × Pos)) := do
  let rest ← ahead
  let behind := rest.tail
  if functionAhead rest then
    let (name, pos, whole) ← function g
    return if whole then some (name, pos) else none
  else if Ahead.word "extern" rest || (Ahead.word "unsafe" rest && Ahead.word "extern" behind) then
    discard <| optionalWord "unsafe"
    discard take
    if ← optionalWord "crate" then
      if !(← optionalWord "self") then discard ident
      if ← optionalWord "as" then
        if !(← optionalWord "_") then discard ident
      expectSign ";"
    else
      if Ahead.string (← ahead) then discard take
      associatedItems g
    return none
  else if Ahead.word "use" rest then
    discard take
    discard <| optionalSign "::"
    g.useTree
    expectSign ";"
    return none
  else if Ahead.word "static" rest then staticItem g
  else if Ahead.word "const" rest then constantItem g
  else if Ahead.word "type" rest then typeItem g
  else if Ahead.word "union" rest && Ahead.ident behind then
    discard take
    let pos := Ahead.pos behind
    let name ← ident
    discard <| generics g
    discard <| whereClause g
    discard <| namedFields g
    return some (name, pos)
  else if Ahead.word "trait" rest || (Ahead.word "auto" rest && Ahead.word "trait" behind) ||
      (Ahead.word "unsafe" rest && (Ahead.word "trait" behind ||
        (Ahead.word "auto" behind && Ahead.word "trait" behind.tail))) then
    traitItem g
  else if Ahead.word "impl" rest || (Ahead.word "unsafe" rest && Ahead.word "impl" behind) ||
      (Ahead.word "default" rest && !Ahead.sign "!" behind) then
    implItem g
    return none
  else if Ahead.word "macro" rest then
    discard take
    discard ident
    if Ahead.opening .round (← ahead) then discard tree
    if !Ahead.opening .curly (← ahead) then fail "expected curly braces"
    discard tree
    return none
  else
    if visible then fail "expected an item"
    invocationItem
    return none

def moduleItem (g : Rules) (attrs : List Attribute) (vis : Code) : Scan Item := do
  let marked ← optionalWord "unsafe"
  expectWord "mod"
  let pos := Ahead.pos (← ahead)
  let name ← if Ahead.word "try" (← ahead) then anyWord else ident
  let head : ModuleHead := ⟨attrs, vis, if marked then [.plain "unsafe"] else [], name, pos⟩
  if ← optionalSign ";" then return .module head none
  within .curly do
    let inner ← innerAttributes g
    let items ← folded (fun items => do
      if Ahead.finished (← ahead) then return none
      return some (items ++ [← g.item])) []
    return .module { head with attrs := attrs ++ inner } (some items)

def itemBehind (g : Rules) (attrs : List Attribute) (attrCode : Code) (start : Pos) :
    Scan Item := do
  let ((), vis) ← keeping visibility
  let vis := Piece.codes vis
  let rest ← ahead
  let head := attrCode ++ vis
  if Ahead.word "struct" rest then
    let ((name, pos, general, fields, bounded), pieces) ← keeping do
      expectWord "struct"
      let pos := Ahead.pos (← ahead)
      let name ← ident
      let general ← generics g
      let (fields, bounded) ← structFields g
      return (name, pos, general, fields, bounded)
    return .struct ⟨attrs, vis, name, pos, general, bounded, fields, head ++ Piece.codes pieces⟩
  else if Ahead.word "enum" rest then
    let ((name, pos), pieces) ← keeping do
      expectWord "enum"
      let pos := Ahead.pos (← ahead)
      let name ← ident
      discard <| generics g
      discard <| whereClause g
      within .curly (separated "," (variant g))
      return (name, pos)
    return .enum ⟨attrs, name, pos, start, head ++ Piece.codes pieces⟩
  else if Ahead.word "mod" rest || (Ahead.word "unsafe" rest && Ahead.word "mod" rest.tail) then
    moduleItem g attrs vis
  else
    let (name, pieces) ← keeping (otherItem g !vis.isEmpty)
    return .other name (head ++ Piece.codes pieces)

def oneItem (g : Rules) : Scan Item := do
  let start := Ahead.pos (← ahead)
  let (attrs, pieces) ← keeping (attributes g)
  itemBehind g attrs (Piece.codes pieces) start

def itemAhead (rest : List Lexeme) : Bool :=
  let behind := rest.tail
  let third := behind.tail
  Ahead.words ["pub", "extern", "use", "mod", "type", "struct", "enum", "trait", "impl", "macro",
      "fn"] rest ||
    (Ahead.word "crate" rest && !Ahead.sign "::" behind) ||
    (Ahead.word "static" rest && (Ahead.word "mut" behind || Ahead.ident behind)) ||
    (Ahead.word "const" rest && !(Ahead.opening .curly behind || Ahead.word "static" behind ||
      (Ahead.word "async" behind && !Ahead.words ["unsafe", "extern", "fn"] third) ||
      Ahead.word "move" behind || Ahead.sign "|" behind)) ||
    (Ahead.word "unsafe" rest && !Ahead.opening .curly behind) ||
    (Ahead.word "async" rest && Ahead.words ["unsafe", "extern", "fn"] behind) ||
    (Ahead.word "union" rest && Ahead.ident behind) ||
    (Ahead.word "auto" rest && Ahead.word "trait" behind) ||
    (Ahead.word "default" rest && Ahead.words ["unsafe", "impl"] behind)

def letStatement (g : Rules) : Scan Unit := do
  expectWord "let"
  g.pattern
  if ← optionalSign ":" then typeHere g true
  if ← optionalSign "=" then
    let ((_), pieces) ← keeping (g.expr true)
    let braceLast := (Piece.codes pieces).getLast? == some (.closing .curly)
    if !braceLast then
      if ← optionalWord "else" then g.block
  expectSign ";"

/-- A call with braces as a statement of its own, or a definition with a name behind the mark. -/
inductive CallStatement where
  | call
  | item

def callStatement? : Scan (Option CallStatement) := do
  let some rest ← look (do discard namePath; ahead) | return none
  let behind := rest.tail
  let third := Ahead.skip behind
  return if !Ahead.sign "!" rest || Ahead.sign "!=" rest then none
    else if Ahead.ident behind || Ahead.word "try" behind then some .item
    else if Ahead.opening .curly behind && !((Ahead.sign "." third && !Ahead.sign ".." third) ||
      Ahead.sign "?" third) then some .call
    else none

def oneStatement (g : Rules) : Scan Bool := do
  let start := Ahead.pos (← ahead)
  let (attrs, pieces) ← keeping (attributes g)
  let call ← callStatement?
  let rest ← ahead
  match call with
  | some .call =>
    discard namePath
    expectSign "!"
    discard tree
    discard <| optionalSign ";"
    return false
  | some .item =>
    discard <| itemBehind g attrs (Piece.codes pieces) start
    return false
  | none =>
    if Ahead.word "let" rest then
      letStatement g
      return false
    else if itemAhead rest then
      discard <| itemBehind g attrs (Piece.codes pieces) start
      return false
    else
      let shape ← g.statement
      if ← optionalSign ";" then return false
      return !(shape matches .block | .invocation .curly)

def blockOf (g : Rules) : Scan Unit := braced g <| repeated do
  repeated (optionalSign ";")
  if Ahead.finished (← ahead) then return false
  let open_ ← oneStatement g
  if Ahead.finished (← ahead) then return false
  if open_ then fail "unexpected token, expected `;`"
  return true

/-- The rules with up to `depth` rules called within each other. -/
def nested : Nat → Rules
  | 0 => .exhausted
  | depth + 1 =>
    { ty := fun plus cursor => type (nested depth) plus cursor
      bounds := fun plus cursor => boundList (nested depth) plus cursor
      expr := fun literals cursor => exprFrom (nested depth) literals cursor
      operand := fun literals cursor => operandFrom (nested depth) literals cursor
      climb := fun literals level left cursor =>
        climbFrom (nested depth) literals level left cursor
      statement := fun cursor => statementExpr (nested depth) cursor
      pattern := fun cursor => onePattern (nested depth) cursor
      block := fun cursor => blockOf (nested depth) cursor
      item := fun cursor => oneItem (nested depth) cursor
      useTree := fun cursor => useTreeFrom (nested depth) cursor }

end EntityGen.Rules
