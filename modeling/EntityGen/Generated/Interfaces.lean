import EntityGen.Generated.MemoryStore
import EntityGen.Generated.Repository

/-! The traits of stores and repositories. A trait declares the heads of the very methods that
implement it. -/
namespace EntityGen.Generated.Interfaces

def traitDecl (part : Part) (name : Ident) (summary : String) (methods : List Method) : TypeDecl :=
  { part, placement := .store, name, vis := [.plain "pub"], attrs := [Code.doc summary],
    shape := .trait (methods.map Method.signature) }

def storeReader (runtime : Path) (entities : List Entity) : Except BadName TypeDecl :=
  return traitDecl .storeInterfaces Naming.storeReader " Read side of an entity store."
    (← entities.mapM (MemoryStore.get runtime))

def storeWriter (runtime : Path) (entities : List Entity) : Except BadName TypeDecl :=
  return traitDecl .storeInterfaces Naming.storeWriter
    " Write side of an entity store. `put_*` reports whether the entity was stored."
    (← entities.mapM (MemoryStore.put runtime))

def repositoryReader (runtime : Path) (entities : List Entity) : TypeDecl :=
  traitDecl .repositoryInterfaces Naming.repositoryReader
    " Reads entities with every nested reference brought up to date."
    (entities.map (Get.method runtime))

def repositoryWriter (entities : List Entity) : TypeDecl :=
  traitDecl .repositoryInterfaces Naming.repositoryWriter
    " Stores entities transitively and reports the touched ones." (entities.map Put.method)

end EntityGen.Generated.Interfaces
