/-! Tokens of source code, their places in a text, and the form in which tokens are shown: in
order, with one space between any two. -/
namespace EntityGen

/-- A place in a text: the line from 1, the column from 0 in characters. -/
structure Pos where
  line : Nat
  column : Nat
deriving DecidableEq, Repr, Inhabited

/-- The place of what stands nowhere in a text. -/
def Pos.none : Pos := ⟨0, 0⟩

def Pos.start : Pos := ⟨1, 0⟩

def Pos.next (p : Pos) (c : Char) : Pos :=
  if c == '\n' then ⟨p.line + 1, 0⟩ else ⟨p.line, p.column + 1⟩

/-- The place behind a stretch of text. -/
def Pos.after (p : Pos) (text : List Char) : Pos := text.foldl Pos.next p

structure Ident where
  name : String
  raw : Bool := false
deriving DecidableEq, Repr, Inhabited

def Ident.text (x : Ident) : String := if x.raw then "r#" ++ x.name else x.name

inductive Delimiter where
  | round
  | square
  | curly
deriving DecidableEq, Repr

inductive Token where
  | word (ident : Ident)
  /-- A lifetime, its apostrophe included. -/
  | lifetime (text : String)
  | punct (c : Char)
  | literal (text : String)
  | opening (d : Delimiter)
  | closing (d : Delimiter)
deriving DecidableEq, Repr, Inhabited

abbrev Code := List Token

namespace Token

def text : Token → String
  | word ident => ident.text
  | lifetime text => text
  | punct c => c.toString
  | literal text => text
  | opening .round => "("
  | opening .square => "["
  | opening .curly => "\x7b"
  | closing .round => ")"
  | closing .square => "]"
  | closing .curly => "\x7d"

def plain (name : String) : Token := word ⟨name, false⟩

end Token

namespace Code

def text (code : Code) : String := " ".intercalate (code.map Token.text)

def compact (code : Code) : String := String.join (code.map Token.text)

def within (d : Delimiter) (code : Code) : Code := .opening d :: code ++ [.closing d]

/-- Punctuation of several characters, one token for each. -/
def sign (signs : List Char) : Code := signs.map .punct

/-- A path from the roots of all libraries. -/
def rooted (names : List String) : Code :=
  names.flatMap fun name => sign [':', ':'] ++ [.plain name]

def step (code : Code) (name : Ident) : Code := code ++ sign [':', ':'] ++ [.word name]

/-- A path applied to arguments, which stand in angle brackets as one code. -/
def applied (code args : Code) : Code := code ++ .punct '<' :: args ++ [.punct '>']

def commas (codes : List Code) : Code := (codes.intersperse [.punct ',']).flatten

end Code
end EntityGen
