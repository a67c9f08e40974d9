import EntityGen.Generated.TypeDecl
import EntityGen.Naming
import EntityGen.Resolve.Table

/-! What generated code calls: paths into the standard library and into the library that runs it,
which is found at the path that the settings give. -/
namespace EntityGen

namespace Code

def rc : Code := rooted ["std", "rc", "Rc"]
def refCell : Code := rooted ["std", "cell", "RefCell"]
def hashMap : Code := rooted ["std", "collections", "HashMap"]
def hashSet : Code := rooted ["std", "collections", "HashSet"]
def vec : Code := rooted ["std", "vec", "Vec"]
def option : Code := rooted ["std", "option", "Option"]
def absent : Code := rooted ["std", "option", "Option", "None"]
def clone : Code := rooted ["std", "clone", "Clone", "clone"]
def default : Code := rooted ["std", "default", "Default", "default"]
def hash : Code := rooted ["std", "hash", "Hash", "hash"]

def itself : Code := [.plain "Self"]

/-- The attribute that documents what stands behind it. -/
def doc (text : String) : Code :=
  .punct '#' ::
    within .square [.plain "doc", .punct '=', .literal (Quoted.quote text)]

def derive (traits : List Code) : Code :=
  .punct '#' :: within .square (.plain "derive" :: within .round (commas traits))

def allow (lint : Code) : Code :=
  .punct '#' :: within .square (.plain "allow" :: within .round lint)

def compileError (message : String) : Code :=
  rooted ["core", "compile_error"] ++ .punct '!' :: within .curly [.literal (Quoted.quote message)]

def shared (type : Code) : Code := rc.applied type

def newShared : Code := rc.step ⟨"new", false⟩

def cloneShared : Code := rc.step ⟨"clone", false⟩

end Code

namespace Path

def entityTrait (runtime : Path) : Code := runtime.code.step ⟨"Entity", false⟩

def idFunction (runtime : Path) : Code := runtime.entityTrait.step ⟨"id", false⟩

/-- The function that takes the stored version of an entity if it differs from the cached one. -/
def reconcile (runtime : Path) : Code := runtime.code.step ⟨"reconcile", false⟩

end Path

namespace EntityType

def found (entity : EntityType) : Code := Code.option.applied (Code.shared entity.fromStore)

def idRef (entity : EntityType) (runtime : Path) : Code := .punct '&' :: entity.idType runtime

end EntityType

namespace Expr

def self : Expr := literal [.plain "self"]

def get (receiver : Expr) (method : String) : Expr := receiver.call ⟨method, false⟩ []

def cloned (source : Expr) : Expr := invoke Code.clone [source]

end Expr
end EntityGen
