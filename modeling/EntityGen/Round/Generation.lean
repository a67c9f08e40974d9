import EntityGen.Round.Folder

/-! Generation from a source file into a folder. The items of the file are those of the root
module. -/
namespace EntityGen

inductive SourceError where
  /-- The source cannot be read as text. -/
  | unread (path text : String)
  | unparsed (path : String)
  | badName (bad : BadName)
  deriving DecidableEq, Repr

def SourceError.message : SourceError → String
  | unread path text => "failed to read `" ++ path ++ "`: " ++ text
  | unparsed path => "failed to parse `" ++ path ++ "`"
  | badName bad => bad.message

/-- The text of a source file, which may not be there. -/
def sourceText (path : String) (bytes : Option ByteArray) : Except SourceError String :=
  match bytes with
  | none => .error (.unread path FolderFault.missing.message)
  | some bytes =>
    match String.fromUTF8? bytes with
    | some text => .ok text
    | none => .error (.unread path "stream did not contain valid UTF-8")

def generateFiles (settings : Settings) (path root : String) (bytes : Option ByteArray)
    (folder : Folder) : Except SourceError (Round Written) := do
  let text ← sourceText path bytes
  let some items := Item.listOfText? text | throw (.unparsed path)
  (Round.run settings items (Target.ofSettings root settings).sink ⟨folder, []⟩).mapError .badName

end EntityGen
