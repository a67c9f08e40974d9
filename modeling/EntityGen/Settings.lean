import EntityGen.Grammar.Source

/-! The options of a round: the name of the store module, the path of the library that generated
code calls, and whether written files are formatted. They are read from a list of options, which
is read as a whole before any of its entries is judged; the last value of an option counts. -/
namespace EntityGen

structure Settings where
  store : Ident := ⟨"store", false⟩
  runtime : Path := ⟨true, [.bare ⟨"entity_normalizer", false⟩]⟩
  format : Bool := true

inductive SettingsError where
  | unknownOption (key : String) (pos : Pos)
  | invalidValue (key detail : String) (pos : Pos)
  | malformed (fault : Fault)
  deriving DecidableEq, Repr

namespace SettingsError

def message : SettingsError → String
  | unknownOption key _ =>
    "unknown entity_module option `" ++ key ++ "`, expected `store`, `runtime` or `format`"
  | invalidValue key detail _ =>
    "invalid value for entity_module option `" ++ key ++ "`: " ++ detail
  | malformed fault => "malformed entity_module arguments: " ++ fault.message

def pos : SettingsError → Pos
  | unknownOption _ pos => pos
  | invalidValue _ _ pos => pos
  | malformed fault => fault.pos

end SettingsError

structure OptionEntry where
  path : NamePath
  pathPos : Pos
  /-- The value, if it is nothing but a string literal. -/
  value : Option String
  valuePos : Pos
  deriving DecidableEq, Repr

namespace OptionEntry
open Scan

/-- The text of what is one string literal and nothing else. -/
def literalText? : List Piece → Option String
  | [.token (.literal text)] => Quoted.value? text
  | _ => none

def read (g : Rules) : Scan OptionEntry := do
  let pathPos := Ahead.pos (← ahead)
  let path ← Rules.metaPath
  expectSign "="
  let valuePos := Ahead.pos (← ahead)
  let ((), pieces) ← captured (Rules.metaValue g)
  return ⟨path, pathPos, literalText? pieces, valuePos⟩

def readList (g : Rules) : Scan (List OptionEntry) := listed "," (read g)

def key (entry : OptionEntry) : String := entry.path.code.compact

end OptionEntry

namespace Settings

/-- Reads the text of an option by a rule that takes all of it. -/
def readValue (rule : Rules → Scan α) (text : String) : Except String α :=
  match Lexer.tokens? text with
  | none => .error "cannot parse string into token stream"
  | some lexemes => (readAll rule lexemes).mapError Fault.message

def truth? (text : String) : Except String Bool :=
  if text == "true" then .ok true
  else if text == "false" then .ok false
  else .error "provided string was not `true` or `false`"

def set (settings : Settings) (entry : OptionEntry) : Except SettingsError Settings := do
  let key := entry.key
  let invalid (detail : String) := SettingsError.invalidValue key detail entry.valuePos
  let some text := entry.value | throw (invalid "expected a string literal")
  let quoting (detail : String) := invalid ("`" ++ text ++ "`: " ++ detail)
  if key == "store" then
    return { settings with store := ← (readValue (fun _ => Scan.ident) text).mapError quoting }
  else if key == "runtime" then
    let path ← (readValue (fun g => Rules.path g false) text).mapError quoting
    return { settings with runtime := path }
  else if key == "format" then
    return { settings with format := ← (truth? text).mapError invalid }
  else throw (.unknownOption key entry.pathPos)

def setAll (settings : Settings) : List OptionEntry → Except SettingsError Settings
  | [] => return settings
  | entry :: rest => do setAll (← settings.set entry) rest

def ofTokens (lexemes : List Lexeme) : Except SettingsError Settings := do
  setAll {} (← (readAll OptionEntry.readList lexemes).mapError .malformed)

end Settings
end EntityGen
