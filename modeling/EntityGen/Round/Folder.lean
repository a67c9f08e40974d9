import EntityGen.Round.Basic

/-! Folders and files. A unit is written to a file named after its type, in the folder of its
module or of the store module, below a root. A name without letters gives no folder. -/
namespace EntityGen

inductive Content where
  | text (text : String)
  /-- Code that is laid out by a formatter. -/
  | formatted (code : Code)
  deriving DecidableEq, Repr

inductive FolderEntry where
  | folder
  | file (content : Content)
  deriving DecidableEq, Repr

/-- What stands below a root folder, by the names on the way to it. -/
structure Folder where
  entries : List (List String × FolderEntry) := []
  deriving DecidableEq, Repr

inductive FolderFault where
  | missing
  /-- A file stands where a folder is needed. -/
  | fileExists
  /-- A file stands on the way to where a folder is needed. -/
  | notFolder
  | isFolder
  | nameTooLong
  deriving DecidableEq, Repr

def FolderFault.message : FolderFault → String
  | missing => "No such file or directory (os error 2)"
  | fileExists => "File exists (os error 17)"
  | notFolder => "Not a directory (os error 20)"
  | isFolder => "Is a directory (os error 21)"
  | nameTooLong => "File name too long (os error 36)"

namespace Folder

def find? (folder : Folder) (path : List String) : Option FolderEntry :=
  (folder.entries.find? fun (key, _) => key == path).map Prod.snd

/-- Puts an entry at a path, in place of what stood there. -/
def set (folder : Folder) (path : List String) (entry : FolderEntry) : Folder :=
  ⟨folder.entries.filter (fun (key, _) => key != path) ++ [(path, entry)]⟩

/-- Names have at most so many bytes. -/
def nameLimit : Nat := 255

def isTooLong (name : String) : Bool := nameLimit < name.utf8ByteSize

/-- Makes the folders `todo` one in the other below the folder `done`, as far as they are not
there. Those made before a fault stay. -/
def makeFolders (folder : Folder) (done : List String) :
    List String → Folder × Option FolderFault
  | [] => (folder, none)
  | name :: todo =>
    if isTooLong name then (folder, some .nameTooLong)
    else
      let path := done ++ [name]
      match folder.find? path with
      | some .folder => makeFolders folder path todo
      | some (.file _) => (folder, some (if todo.isEmpty then .fileExists else .notFolder))
      | none => makeFolders (folder.set path .folder) path todo

/-- Writes a file as a whole or not at all, in folders that are made if need be. -/
def write (folder : Folder) (folders : List String) (name : String) (content : Content) :
    Folder × Option FolderFault :=
  match makeFolders folder [] folders with
  | (folder, some fault) => (folder, some fault)
  | (folder, none) =>
    if isTooLong name then (folder, some .nameTooLong)
    else if folder.find? (folders ++ [name]) == some .folder then (folder, some .isFolder)
    else (folder.set (folders ++ [name]) (.file content), none)

end Folder

structure Target where
  root : String
  store : Ident
  /-- Files are laid out by a formatter. -/
  format : Bool

namespace Target

def ofSettings (root : String) (settings : Settings) : Target :=
  ⟨root, settings.store, settings.format⟩

def folders (target : Target) (placement : Placement) : List String :=
  let stems := match placement with
    | .entity module _ => module.map Naming.fileStem
    | .store => [Naming.fileStem target.store]
  stems.filter fun stem => !stem.isEmpty

def fileName (unit : GeneratedUnit) : String := Naming.fileStem unit.name ++ ".rs"

/-- What stands before the first name below the root: its own path, and a slash unless that ends
in one or is empty. -/
def opening (target : Target) : String :=
  if target.root.toList.getLast?.all (· == '/') then target.root else target.root ++ "/"

def path (target : Target) (unit : GeneratedUnit) : String :=
  target.opening ++ "/".intercalate (target.folders unit.placement ++ [fileName unit])

def header : String := "// Generated by entity_normalizer. Do not edit.\n\n"

/-- The content of the file for a unit. Only code that can be read is laid out. -/
def render (target : Target) (unit : GeneratedUnit) : Except Fault Content :=
  if target.format then (Item.listOfCode unit.code).map fun _ => .formatted unit.code
  else .ok (.text (header ++ unit.code.text ++ "\n"))

end Target

/-- Files on their way to a folder. -/
structure Written where
  folder : Folder
  /-- The paths of the files that were written. -/
  paths : List String := []
  deriving DecidableEq, Repr

def Target.sink (target : Target) : Sink Written := fun unit written =>
  let path := target.path unit
  match target.render unit with
  | .error fault => (written, some (.unreadable path fault.message))
  | .ok content =>
    match written.folder.write (target.folders unit.placement) (Target.fileName unit) content with
    | (folder, some fault) => ({ written with folder }, some (.unwritten path fault.message))
    | (folder, none) => (⟨folder, written.paths ++ [path]⟩, none)

end EntityGen
