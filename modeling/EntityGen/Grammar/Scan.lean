import EntityGen.Grammar.Ty
import EntityGen.Token.Lexer

/-! Reading code from left to right. A scan takes tokens from the front of what is left, and
keeps a record of the tokens and types it has passed. A closing bracket ends the list of tokens
for everything that stands within its pair. -/
namespace EntityGen

structure Fault where
  message : String
  pos : Pos
  deriving DecidableEq, Repr

def keywords : List String :=
  ["_", "abstract", "as", "async", "await", "become", "box", "break", "const", "continue", "crate",
    "do", "dyn", "else", "enum", "extern", "false", "final", "fn", "for", "if", "impl", "in", "let",
    "loop", "macro", "match", "mod", "move", "mut", "override", "priv", "pub", "ref", "return",
    "Self", "self", "static", "struct", "super", "trait", "true", "try", "type", "typeof", "unsafe",
    "unsized", "use", "virtual", "where", "while", "yield"]

def Ident.isKeyword (x : Ident) : Bool := !x.raw && keywords.contains x.name

namespace Ahead

def finished : List Lexeme → Bool
  | [] => true
  | lexeme :: _ => lexeme.token matches .closing _

def pos : List Lexeme → Pos
  | [] => .none
  | lexeme :: _ => lexeme.pos

def word? : List Lexeme → Option Ident
  | ⟨.word ident, _, _⟩ :: _ => some ident
  | _ => none

def word (name : String) (rest : List Lexeme) : Bool := word? rest == some ⟨name, false⟩

def anyWord (rest : List Lexeme) : Bool := (word? rest).isSome

def words (names : List String) (rest : List Lexeme) : Bool := names.any (word · rest)

def ident (rest : List Lexeme) : Bool := (word? rest).any fun ident => !ident.isKeyword

/-- A sign of several characters: each but the last is followed at once by the next. -/
def signFrom : List Char → List Lexeme → Bool
  | [], _ => true
  | [c], ⟨.punct d, _, _⟩ :: _ => c == d
  | c :: signs, ⟨.punct d, joint, _⟩ :: rest => c == d && joint && signFrom signs rest
  | _, _ => false

def sign (signs : String) (rest : List Lexeme) : Bool := signFrom signs.toList rest

def signs (all : List String) (rest : List Lexeme) : Bool := all.any (sign · rest)

def opening (d : Delimiter) : List Lexeme → Bool
  | ⟨.opening found, _, _⟩ :: _ => found == d
  | _ => false

def lifetime : List Lexeme → Bool
  | ⟨.lifetime _, _, _⟩ :: _ => true
  | _ => false

def literalText? : List Lexeme → Option String
  | ⟨.literal text, _, _⟩ :: _ => some text
  | _ => none

def isNumber (text : String) : Bool := text.toList.head?.any Char.isDigit

def isStringLiteral (text : String) : Bool :=
  text.toList.head?.any fun c => c == '"' || c == 'r'

def string (rest : List Lexeme) : Bool := (literalText? rest).any isStringLiteral

/-- A literal, a truth value or a negative number. -/
def literal (rest : List Lexeme) : Bool :=
  (literalText? rest).isSome || words ["true", "false"] rest ||
    (sign "-" rest && (literalText? rest.tail).any isNumber)

/-- How many tokens stand before the bracket that closes what is open; `depth` brackets were
opened on the way. -/
def length : Nat → List Lexeme → Nat
  | _, [] => 0
  | depth, lexeme :: rest =>
    match lexeme.token, depth with
    | .opening _, _ => length (depth + 1) rest + 1
    | .closing _, 0 => 0
    | .closing _, depth + 1 => length depth rest + 1
    | _, _ => length depth rest + 1

/-- What stands behind the first token, or behind the brackets that it opens. -/
def skip : List Lexeme → List Lexeme
  | [] => []
  | lexeme :: rest =>
    match lexeme.token with
    | .opening _ => rest.drop (length 0 rest + 1)
    | _ => rest

end Ahead

structure Cursor where
  rest : List Lexeme
  /-- What was passed, latest first. -/
  seen : List Piece

/-- What a scan gives: a result, and the place behind it, which is not before where it began and
where the record of what was passed before is still there. -/
structure Scan.Found (α : Type) (cursor : Cursor) where
  result : α
  after : Cursor
  isSuffix : after.rest <:+ cursor.rest
  recorded : cursor.seen <:+ after.seen

def Scan (α : Type) : Type := (cursor : Cursor) → Except Fault (Scan.Found α cursor)

namespace Scan

/-- Gives a result and takes nothing. -/
def Found.here (result : α) (cursor : Cursor) : Found α cursor :=
  ⟨result, cursor, List.suffix_refl _, List.suffix_refl _⟩

instance : Monad Scan where
  pure result := fun cursor => .ok (.here result cursor)
  bind scan next := fun cursor => do
    let first ← scan cursor
    let second ← next first.result first.after
    return ⟨second.result, second.after, second.isSuffix.trans first.isSuffix,
      first.recorded.trans second.recorded⟩

instance : MonadExceptOf Fault Scan where
  throw fault := fun _ => .error fault
  tryCatch scan handle := fun cursor => tryCatch (scan cursor) fun fault => handle fault cursor

def run (scan : Scan α) (cursor : Cursor) : Except Fault (α × Cursor) :=
  (scan cursor).map fun found => (found.result, found.after)

def ahead : Scan (List Lexeme) := fun cursor => .ok (.here cursor.rest cursor)

def emit (pieces : List Piece) : Scan Unit := fun cursor =>
  .ok ⟨(), { cursor with seen := pieces.reverse ++ cursor.seen }, List.suffix_refl _,
    List.suffix_append ..⟩

def failAt (message : String) : Scan α := do throw ⟨message, Ahead.pos (← ahead)⟩

/-- A fault of what stands ahead; it says so if nothing does. -/
def fail (message : String) : Scan α := do
  let rest ← ahead
  failAt (if Ahead.finished rest then "unexpected end of input, " ++ message else message)

def take : Scan Token := fun cursor =>
  match left : cursor.rest with
  | [] => fail "expected a token" cursor
  | lexeme :: rest =>
    .ok ⟨lexeme.token, ⟨rest, .token lexeme.token :: cursor.seen⟩, left ▸ List.suffix_cons _ _,
      List.suffix_cons ..⟩

def takeAll : Nat → Scan Unit
  | 0 => return ()
  | count + 1 => do discard take; takeAll count

/-- Runs a scan and gives what it passed instead of keeping it. -/
def captured (scan : Scan α) : Scan (α × List Piece) := fun cursor => do
  let found ← scan { cursor with seen := [] }
  return ⟨(found.result, found.after.seen.reverse), { found.after with seen := cursor.seen },
    found.isSuffix, List.suffix_refl _⟩

def piecesOf (scan : Scan Unit) : Scan (List Piece) := return (← captured scan).2

def keeping (scan : Scan α) : Scan (α × List Piece) := do
  let (result, pieces) ← captured scan
  emit pieces
  return (result, pieces)

/-- What the scan gives here, if it succeeds; nothing is taken. -/
def look (scan : Scan α) : Scan (Option α) := fun cursor =>
  match scan cursor with
  | .ok found => .ok (.here (some found.result) cursor)
  | .error _ => .ok (.here none cursor)

/-- Whether the scan succeeds here; nothing is taken. -/
def test (scan : Scan α) : Scan Bool := Option.isSome <$> look scan

/-- Runs the scan if it succeeds, and takes nothing otherwise. -/
def attempt (scan : Scan α) : Scan (Option α) := fun cursor =>
  match scan cursor with
  | .ok found => .ok ⟨some found.result, found.after, found.isSuffix, found.recorded⟩
  | .error _ => .ok (.here none cursor)

/-- At most `fuel` rounds of a step that says whether to go on. -/
def rounds : Nat → Scan Bool → Scan Unit
  | 0, _ => return ()
  | fuel + 1, step => do if ← step then rounds fuel step

/-- Repeats a step that takes at least one token whenever it says to go on. -/
def repeated (step : Scan Bool) : Scan Unit := do rounds ((← ahead).length + 1) step

/-- At most `fuel` rounds of a step that changes a value until it gives none. -/
def foldRounds : Nat → (α → Scan (Option α)) → α → Scan α
  | 0, _, value => return value
  | fuel + 1, step, value => do
    match ← step value with
    | some value => foldRounds fuel step value
    | none => return value

/-- Repeats a step that takes at least one token whenever it gives a value. -/
def folded (step : α → Scan (Option α)) (value : α) : Scan α := do
  foldRounds ((← ahead).length + 1) step value

def expectSign (signs : String) : Scan Unit := do
  if Ahead.sign signs (← ahead) then takeAll signs.length
  else failAt ("expected `" ++ signs ++ "`")

def expectWord (name : String) : Scan Unit := do
  if Ahead.word name (← ahead) then discard take else failAt ("expected `" ++ name ++ "`")

def optionalSign (signs : String) : Scan Bool := do
  if Ahead.sign signs (← ahead) then takeAll signs.length; return true else return false

def optionalWord (name : String) : Scan Bool := do
  if Ahead.word name (← ahead) then discard take; return true else return false

def ident : Scan Ident := do
  match Ahead.word? (← ahead) with
  | some ident =>
    if ident.isKeyword then fail ("expected identifier, found keyword `" ++ ident.name ++ "`")
    else discard take; return ident
  | none => fail "expected identifier"

def anyWord : Scan Ident := do
  match Ahead.word? (← ahead) with
  | some ident => discard take; return ident
  | none => fail "expected identifier"

def lifetime : Scan String := do
  match ← ahead with
  | ⟨.lifetime text, _, _⟩ :: _ => discard take; return text
  | _ => fail "expected lifetime"

def literal : Scan Unit := do
  let rest ← ahead
  if !Ahead.literal rest then fail "expected literal"
  if Ahead.sign "-" rest then discard take
  discard take

def finish : Scan Unit := do
  if !Ahead.finished (← ahead) then failAt "unexpected token"

/-- Runs a scan between a pair of brackets, which it has to fill. -/
def within (d : Delimiter) (body : Scan α) : Scan α := do
  if !Ahead.opening d (← ahead) then
    fail (match d with
      | .round => "expected parentheses"
      | .square => "expected square brackets"
      | .curly => "expected curly braces")
  discard take
  let result ← body
  finish
  discard take
  return result

def everything : Scan Unit := do takeAll (Ahead.length 0 (← ahead))

def tree : Scan Delimiter := do
  match ← ahead with
  | ⟨.opening d, _, _⟩ :: _ => within d everything; return d
  | _ => fail "expected one of: parentheses, square brackets, curly braces"

/-- Items with a separator between them and perhaps one at the end, up to the end. -/
def separated (sign : String) (item : Scan Unit) : Scan Unit := repeated do
  if Ahead.finished (← ahead) then return false
  item
  if Ahead.finished (← ahead) then return false
  expectSign sign
  return true

/-- One more item of a list, unless it has ended: `more` says that a separator or nothing stands
before it. -/
def nextListed (sign : String) (item : Scan α) :
    List α × Bool → Scan (Option (List α × Bool))
  | (found, more) => do
    if !more || Ahead.finished (← ahead) then return none
    let found := found ++ [← item]
    if Ahead.finished (← ahead) then return some (found, false)
    expectSign sign
    return some (found, true)

/-- The results of items that stand as in `separated`. -/
def listed (sign : String) (item : Scan α) : Scan (List α) :=
  Prod.fst <$> folded (nextListed sign item) ([], true)

end Scan
end EntityGen
