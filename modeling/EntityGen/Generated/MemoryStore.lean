import EntityGen.Generated.Paths
import EntityGen.Resolve.Resolution

/-! The store in memory. It keeps one shared value for each id of each entity in a field of its
own, and has the methods of both store traits. -/
namespace EntityGen.Generated.MemoryStore

def idVar : Ident := Naming.plain "id"
def entityVar : Ident := Naming.plain "entity"

def field (runtime : Path) (entity : Entity) : Except BadName FieldDecl := do
  let name ← Naming.byIdField entity.name
  let args := Code.commas [entity.type.idType runtime, Code.shared entity.type.fromStore]
  return { name, type := Code.refCell.applied (Code.hashMap.applied args) }

def get (runtime : Path) (entity : Entity) : Except BadName Method := do
  let field ← Naming.byIdField entity.name
  let stored := ((Expr.self.field field).get "borrow").call (Naming.plain "get") [.name idVar]
  return {
    name := Naming.getMethod entity.name
    params := [(idVar, entity.type.idRef runtime)]
    result := some entity.type.found
    body := some [.ret (stored.get "cloned")] }

/-- Stores an entity under its id, whatever stood there. -/
def put (runtime : Path) (entity : Entity) : Except BadName Method := do
  let field ← Naming.byIdField entity.name
  let key := Expr.invoke runtime.idFunction
    [(Expr.literal [.punct '*', .word entityVar]).borrow]
  let map := (Expr.self.field field).get "borrow_mut"
  return {
    name := Naming.putMethod entity.name
    params := [(entityVar, Code.shared entity.type.fromStore)]
    result := some [.plain "bool"]
    body := some [.decl false idVar none (some key),
      .expr (map.call (Naming.plain "insert") [.name idVar, .name entityVar]),
      .ret (.literal [.plain "true"])] }

def constructor : Method :=
  { isPublic := true
    name := Naming.plain "new"
    receiver := .absent
    result := some Code.itself
    body := some [.ret (.invoke Code.default [])] }

def typeDecl (runtime : Path) (entities : List Entity) : Except BadName TypeDecl := do
  let fields ← entities.mapM (field runtime)
  let getters ← entities.mapM (get runtime)
  let putters ← entities.mapM (put runtime)
  return {
    part := .store
    placement := .store
    name := Naming.memoryStore
    vis := [.plain "pub"]
    attrs := [Code.doc " Single-owner store keeping one `Rc` per entity id.", Code.doc "",
      Code.doc " Writes always succeed and replace any entity stored under the same id.",
      Code.derive [[.plain "Debug"], [.plain "Default"]]]
    shape := .struct fields
    inherent := [constructor]
    impls := [{ trait := [.word Naming.storeReader], methods := getters },
      { trait := [.word Naming.storeWriter], methods := putters }] }

end EntityGen.Generated.MemoryStore
