import EntityGen.Token.Lexer

/-! Tokens as they are read back. Neighbouring punctuation characters belong to one sign if they
spell one; of three colons in a row the first stands for itself, since a path follows it. -/
namespace EntityGen.Code

/-- The signs of several characters, longer ones first. -/
def signs : List (List Char) :=
  ["<<=", ">>=", "...", "..=", "::", "->", "=>", "==", "!=", "<=", ">=", "&&", "||", "+=", "-=",
    "*=", "/=", "%=", "^=", "&=", "|=", "<<", ">>", ".."].map String.toList

def punctuation : Code → List Char
  | .punct c :: rest => c :: punctuation rest
  | _ => []

def signLength (code : Code) : Nat :=
  let ahead := punctuation code
  if [':', ':', ':'].isPrefixOf ahead then 1
  else ((signs.find? fun sign => sign.isPrefixOf ahead).map List.length).getD 1

/-- The tokens with joints inside of signs; `left` characters of a sign are still to come. -/
def lexemesFrom (left : Nat) : Code → List Lexeme
  | [] => []
  | token :: rest =>
    let left := if left == 0 then signLength (token :: rest) - 1 else left - 1
    ⟨token, 0 < left, .none⟩ :: lexemesFrom left rest

def lexemes (code : Code) : List Lexeme := lexemesFrom 0 code

end EntityGen.Code
