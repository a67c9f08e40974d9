import EntityGen.Grammar.ItemRules
import EntityGen.Token.Signs

/-! Reading texts: whole source files, single items, types, paths and identifiers. -/
namespace EntityGen

/-- Reads tokens by a rule that has to take all of them up to the end or a closing bracket. Rules
call each other at most a few times between two tokens, so that the number of tokens bounds the
depth. -/
def readAll (rule : Rules → Scan α) (lexemes : List Lexeme) : Except Fault α := do
  let rules := Rules.nested (4 * lexemes.length + 16)
  let (result, _) ← Scan.run (do let result ← rule rules; Scan.finish; return result) ⟨lexemes, []⟩
  return result

def readText? (rule : Rules → Scan α) (text : String) : Option α := do
  (readAll rule (← Lexer.tokens? text)).toOption

namespace Rules

def fileItems (g : Rules) : Scan (List Item) := do
  discard <| innerAttributes g
  Scan.folded (fun items => do
    if (← Scan.ahead).isEmpty then return none
    return some (items ++ [← g.item])) []

end Rules

/-- A file may begin with a line that names its interpreter, unless that line is an attribute. -/
def dropInterpreter (text : String) : String :=
  let source := Lexer.dropMark text.toList
  match source with
  | '#' :: '!' :: rest =>
    if (Lexer.skipBlanks rest.length rest).head? == some '[' then String.ofList source
    else String.ofList (rest.dropWhile (· != '\n'))
  | _ => String.ofList source

def Item.listOfText? (text : String) : Option (List Item) :=
  readText? Rules.fileItems (dropInterpreter text)

def Item.listOfCode (code : Code) : Except Fault (List Item) :=
  readAll Rules.fileItems code.lexemes

def Item.ofText? (text : String) : Option Item := readText? Rules.oneItem text

def Ty.ofText? (text : String) : Option Ty := readText? (fun g => g.ty true) text

def Path.ofText? (text : String) : Option Path :=
  readText? (fun g => Rules.path g false) text

def Ident.ofText? (text : String) : Option Ident := readText? (fun _ => Scan.ident) text

def Ident.anyOfText? (text : String) : Option Ident := readText? (fun _ => Scan.anyWord) text

end EntityGen
