import EntityGen.Token.Basic
import EntityGen.Token.Quoted

/-! From a text to its tokens. Blanks and comments separate tokens and vanish, except that a
documentation comment stands for the attribute that holds its text. A text has no tokens if a
bracket is unbalanced, a literal does not end, or a character begins no token. -/
namespace EntityGen

/-- A token where it stands. `joint` says that punctuation follows a punctuation character at
once, so that the two may be read as one sign. -/
structure Lexeme where
  token : Token
  joint : Bool
  pos : Pos
deriving DecidableEq, Repr, Inhabited

namespace Lexer

def isBlank (c : Char) : Bool :=
  let n := c.toNat
  n == 0x20 || (0x09 ≤ n && n ≤ 0x0d) || n == 0x85 || n == 0xa0 || n == 0x1680 ||
    (0x2000 ≤ n && n ≤ 0x200a) || n == 0x200e || n == 0x200f || n == 0x2028 || n == 0x2029 ||
    n == 0x202f || n == 0x205f || n == 0x3000

/-- A text without its first `k` characters if it begins with them. -/
def after? (head : List Char) (source : List Char) : Option (List Char) :=
  if head.isPrefixOf source then some (source.drop head.length) else none

def startsWith (head : String) (source : List Char) : Bool := head.toList.isPrefixOf source

/-- The line up to its end, and the text from its end on. The line feed stays, a carriage return
before it goes with it. -/
def splitLine : List Char → List Char × List Char
  | [] => ([], [])
  | '\n' :: rest => ([], '\n' :: rest)
  | '\r' :: '\n' :: rest => ([], '\n' :: rest)
  | c :: rest => let (line, rest) := splitLine rest; (c :: line, rest)

/-- What stands behind a block comment; comments nest. -/
def blockEnd : Nat → List Char → Option (List Char)
  | depth, '/' :: '*' :: rest => blockEnd (depth + 1) rest
  | depth, '*' :: '/' :: rest => if depth ≤ 1 then some rest else blockEnd (depth - 1) rest
  | depth, _ :: rest => blockEnd depth rest
  | _, [] => none

/-- What stands behind a plain comment at the head of the text. -/
def plainComment? (source : List Char) : Option (List Char) :=
  if startsWith "//" source then
    if (startsWith "///" source && !startsWith "////" source) || startsWith "//!" source then none
    else some (splitLine source).2
  else if startsWith "/**/" source then some (source.drop 4)
  else if startsWith "/*" source then
    if (startsWith "/**" source && !startsWith "/***" source) || startsWith "/*!" source then none
    else blockEnd 0 source
  else none

/-- The stretch of the text before `rest`, which is what is left of it. -/
def before (source rest : List Char) : List Char := source.take (source.length - rest.length)

/-- The text without blanks and plain comments in front. `fuel` bounds their number. -/
def skipBlanks : Nat → List Char → List Char
  | 0, source => source
  | fuel + 1, source =>
    match plainComment? source with
    | some rest => skipBlanks fuel rest
    | none => match source with
      | c :: rest => if isBlank c then skipBlanks fuel rest else source
      | [] => []

/-- The contents of a documentation comment, whether it documents what it stands in, and what
stands behind it. -/
def docComment? (source : List Char) : Option (List Char × Bool × List Char) :=
  let block (inner : Bool) := (blockEnd 0 source).map fun rest =>
    (((before source rest).drop 3).dropLast.dropLast, inner, rest)
  let line (inner : Bool) := let (text, rest) := splitLine (source.drop 3); some (text, inner, rest)
  if startsWith "//!" source then line true
  else if startsWith "/*!" source then block true
  else if startsWith "///" source then if startsWith "////" source then none else line false
  else if startsWith "/**" source && !startsWith "/***" source then block false
  else none

/-- A carriage return in a documentation comment stands before a line feed. -/
def returnsPaired : List Char → Bool
  | [] => true
  | '\r' :: '\n' :: rest => returnsPaired rest
  | c :: rest => c != '\r' && returnsPaired rest

def docTokens (text : List Char) (inner : Bool) : Code :=
  .punct '#' :: (if inner then [.punct '!'] else []) ++
    Code.within .square [.plain "doc", .punct '=', .literal (Quoted.quote (String.ofList text))]

def word? : List Char → Option (List Char × List Char)
  | [] => none
  | c :: rest =>
    if Text.isIdentifierStart c then
      some (c :: rest.takeWhile Text.isIdentifierContinue, rest.dropWhile Text.isIdentifierContinue)
    else none

def ident? (source : List Char) : Option (Ident × List Char) :=
  match after? ['r', '#'] source with
  | none => (word? source).map fun (name, rest) => (⟨String.ofList name, false⟩, rest)
  | some marked =>
    match word? marked with
    | none => none
    | some (name, rest) =>
      let name := String.ofList name
      if ["_", "super", "self", "Self", "crate"].contains name then none
      else some (⟨name, true⟩, rest)

def dropSuffix (source : List Char) : List Char :=
  match word? source with
  | some (_, rest) => rest
  | none => source

/-- A number runs into no letter. -/
def wordBreak (source : List Char) : Option (List Char) :=
  match source with
  | c :: _ => if Text.isIdentifierContinue c then none else some source
  | [] => some source

def digitsFrom (base : Nat) : Bool → List Char → Option (List Char)
  | any, [] => if any then some [] else none
  | any, c :: rest =>
    if c == '_' then if !any && base == 10 then none else digitsFrom base any rest
    else match Quoted.hexDigit? c with
      | some digit =>
        if digit < base then digitsFrom base true rest
        else if c.isDigit then none
        else if any then some (c :: rest) else none
      | none => if any then some (c :: rest) else none

def digits (source : List Char) : Option (List Char) :=
  if startsWith "0x" source then digitsFrom 16 false (source.drop 2)
  else if startsWith "0o" source then digitsFrom 8 false (source.drop 2)
  else if startsWith "0b" source then digitsFrom 2 false (source.drop 2)
  else digitsFrom 10 false source

def integer (source : List Char) : Option (List Char) :=
  (digits source).bind fun rest => wordBreak (dropSuffix rest)

/-- What stands behind the exponent of a number. Without a digit in it there is none. -/
def exponent (signed any : Bool) : List Char → Option (List Char)
  | [] => if any then some [] else none
  | c :: rest =>
    if c == '+' || c == '-' then
      if any then some (c :: rest) else if signed then none else exponent true any rest
    else if c.isDigit then exponent signed true rest
    else if c == '_' then exponent signed any rest
    else if any then some (c :: rest) else none

/-- What stands behind the digits, the point and the exponent of a fractional number. -/
def fraction (pointed : Bool) : List Char → Option (List Char)
  | [] => if pointed then some [] else none
  | c :: rest =>
    if c.isDigit || c == '_' then fraction pointed rest
    else if c == '.' && !pointed then
      if rest.head?.any fun d => d == '.' || Text.isIdentifierStart d then none
      else fraction true rest
    else if c == 'e' || c == 'E' then
      match exponent false false rest with
      | some rest => some rest
      | none => if pointed then some (c :: rest) else none
    else if pointed then some (c :: rest) else none

def fractional (source : List Char) : Option (List Char) :=
  match source with
  | c :: rest =>
    if c.isDigit then (fraction false rest).bind fun rest => wordBreak (dropSuffix rest) else none
  | [] => none

def character (form : Quoted.Form) (source : List Char) : Option (List Char) :=
  let closed (rest : List Char) := (after? ['\x27'] rest).map dropSuffix
  match source with
  | '\\' :: 'x' :: high :: low :: rest =>
    match Quoted.hexDigit? high, Quoted.hexDigit? low with
    | some high, some _ => if high < 8 || form.wide then closed rest else none
    | _, _ => none
  | '\\' :: 'u' :: rest =>
    if form.unicode then
      let number := rest.takeWhile (· != '\x7d')
      match Quoted.readFrom form .escaped ('u' :: number ++ ['\x7d', '"']) with
      | some ([_], []) => closed (rest.drop (number.length + 1))
      | _ => none
    else none
  | '\\' :: c :: rest => if (Quoted.simpleEscape? form c).isSome then closed rest else none
  | '\\' :: [] => none
  | c :: rest => if form.unicode || c.toNat < 0x80 then closed rest else none
  | [] => none

def quoted (form : Quoted.Form) (source : List Char) : Option (List Char) :=
  match source with
  | '"' :: rest => (Quoted.read form rest).map fun (_, rest) => dropSuffix rest
  | 'r' :: rest => (Quoted.readMarked form rest).map fun (_, rest) => dropSuffix rest
  | _ => none

def literal (source : List Char) : Option (List Char) :=
  let rest := source.drop 1
  match source.head? with
  | some '"' => quoted .text source
  | some 'r' => quoted .text source
  | some 'b' =>
    match quoted .bytes rest with
    | some rest => some rest
    | none => (after? ['\x27'] rest).bind (character .bytes)
  | some 'c' => quoted .terminated rest
  | some '\x27' => character .text rest
  | some c => if c.isDigit then (fractional source).or (integer source) else none
  | none => none

def isPunct (c : Char) : Bool := "~!@#$%^&*-=+|;:,<.>/?".toList.contains c || c == '\x27'

def punctAhead (source : List Char) : Bool :=
  !startsWith "//" source && !startsWith "/*" source && source.head?.any isPunct

/-- Beginnings of quoted texts, which no identifier has. -/
def quoteHeads : List String :=
  ["r\"", "r#\"", "r##", "b\"", "b\x27", "br\"", "br#", "c\"", "cr\"", "cr#"]

/-- A lifetime: an apostrophe and an identifier, with no second apostrophe behind it. -/
def lifetime? (source : List Char) : Option (String × List Char) :=
  match ident? source with
  | none => none
  | some (name, rest) =>
    if rest.head? == some '\x27' || (rest.head? == some '#' && !name.raw) then none
    else some ("\x27" ++ name.text, rest)

/-- The first token of a text, its joint mark, and what stands behind it. -/
def leaf? (source : List Char) : Option (Token × Bool × List Char) :=
  match literal source with
  | some rest => some (.literal (String.ofList (before source rest)), false, rest)
  | none =>
    match source with
    | [] => none
    | c :: rest =>
      if punctAhead source then
        if c == '\x27' then (lifetime? rest).map fun (text, rest) => (.lifetime text, false, rest)
        else some (.punct c, punctAhead rest, rest)
      else if quoteHeads.any (startsWith · source) then none
      else (ident? source).map fun (name, rest) => (.word name, false, rest)

def opening? (c : Char) : Option Delimiter :=
  if c == '(' then some .round else if c == '[' then some .square
  else if c == '\x7b' then some .curly else none

def closing? (c : Char) : Option Delimiter :=
  if c == ')' then some .round else if c == ']' then some .square
  else if c == '\x7d' then some .curly else none

/-- The tokens of a text that begins at `pos` within the brackets `open`. Every round consumes a
character, so that `fuel` may be the length of the text. -/
def tokensFrom : Nat → List Delimiter → Pos → List Char → Option (List Lexeme)
  | 0, _, _, _ => none
  | fuel + 1, inside, pos, source =>
    let rest := skipBlanks source.length source
    let pos := pos.after (before source rest)
    let goOn (inside : List Delimiter) (lexemes : List Lexeme) (behind : List Char) :=
      (tokensFrom fuel inside (pos.after (before rest behind)) behind).map (lexemes ++ ·)
    match rest with
    | [] => if inside.isEmpty then some [] else none
    | c :: others =>
      match docComment? rest with
      | some (text, inner, behind) =>
        if returnsPaired text then
          goOn inside ((docTokens text inner).map (⟨·, false, pos⟩)) behind
        else none
      | none =>
        match opening? c, closing? c with
        | some d, _ => goOn (d :: inside) [⟨.opening d, false, pos⟩] others
        | none, some d =>
          if inside.head? == some d then goOn inside.tail [⟨.closing d, false, pos⟩] others
          else none
        | none, none =>
          match leaf? rest with
          | some (token, joint, behind) => goOn inside [⟨token, joint, pos⟩] behind
          | none => none

/-- A mark of the byte order at the head of a text is no part of it. -/
def dropMark (source : List Char) : List Char :=
  if source.head? == some '\ufeff' then source.tail else source

/-- All tokens of a text, or nothing if it has a lexical fault. -/
def tokens? (text : String) : Option (List Lexeme) :=
  let source := dropMark text.toList
  tokensFrom (source.length + 1) [] .start source

end Lexer

/-- The tokens of a text without their places. -/
def Code.ofText? (text : String) : Option Code :=
  (Lexer.tokens? text).map fun lexemes => lexemes.map Lexeme.token

end EntityGen
