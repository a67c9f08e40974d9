import EntityGen.Generated.Get
import EntityGen.Generated.Put

/-! The repository and its builder. The repository keeps no entities of its own: reads ask the
stores of one list in order, and writes go to every store of another. A builder with an empty list
takes a fresh store in memory for it, the same one if both are empty. -/
namespace EntityGen.Generated

/-- A list of stores behind one of the store traits. -/
structure StoreList where
  name : Ident
  trait : Ident
  deriving DecidableEq, Repr

namespace StoreList

def readers : StoreList := ⟨Naming.plain "readers", Naming.storeReader⟩
def writers : StoreList := ⟨Naming.plain "writers", Naming.storeWriter⟩
def all : List StoreList := [readers, writers]

def item (list : StoreList) : Code := Code.shared [.plain "dyn", .word list.trait]

def type (list : StoreList) : Code := Code.vec.applied list.item

def field (list : StoreList) : FieldDecl := { name := list.name, type := list.type }

def param (list : StoreList) : Ident × Code := (list.name, list.type)

end StoreList

namespace Repository

def idVar : Ident := Naming.plain "id"
def entityVar : Ident := Naming.plain "entity"

def read (runtime : Path) (entity : Entity) : Method :=
  let reader := Naming.plain "reader"
  let found := Naming.plain "found"
  let probe := Stmt.branch
    (.binds (.present found)
      ((Expr.name reader).call (Naming.getMethod entity.name) [.name idVar]))
    [.ret (.invoke Code.present [.name found])] none
  { name := Naming.readMethod entity.name
    params := [(idVar, entity.type.idRef runtime)]
    result := some entity.type.found
    body := some [
      .each (.name reader) ((Expr.self.field StoreList.readers.name).get "iter") [probe],
      .ret (.literal Code.absent)] }

def write (entity : Entity) : Method :=
  let writer := Naming.plain "writer"
  let put := (Expr.name writer).call (Naming.putMethod entity.name)
    [.invoke Code.cloneShared [(Expr.name entityVar).borrow]]
  { name := Naming.writeMethod entity.name
    params := [(entityVar, Code.shared entity.type.fromStore)]
    body := some [
      .each (.name writer) ((Expr.self.field StoreList.writers.name).get "iter") [.expr put]] }

def constructor : Method :=
  { name := Naming.plain "new"
    receiver := .absent
    params := StoreList.all.map StoreList.param
    result := some Code.itself
    body := some [.ret (.construct Code.itself (StoreList.all.map StoreList.name))] }

def builderMethod : Method :=
  { isPublic := true
    name := Naming.plain "builder"
    receiver := .absent
    result := some [.word Naming.repositoryBuilder]
    body := some [.ret (.invoke Code.default [])] }

def defaultMethod : Method :=
  let builder := Expr.invoke (Code.itself.step ⟨"builder", false⟩) []
  { name := Naming.plain "default"
    receiver := .absent
    result := some Code.itself
    body := some [.ret (builder.get "build")] }

def typeDecl (runtime : Path) (entities : List Entity) : TypeDecl :=
  { part := .repository
    placement := .store
    name := Naming.repository
    vis := [.plain "pub"]
    attrs := [Code.doc " Normalizing repository over a chain of entity stores.", Code.doc "",
      Code.doc " `put_*` stores an entity together with every entity reachable from it and",
      Code.doc " reports all of them as dirty. `get_*` rebuilds stale nested references from",
      Code.doc " the latest stored versions."]
    shape := .struct (StoreList.all.map StoreList.field)
    inherent := constructor :: builderMethod ::
      entities.flatMap fun entity => [read runtime entity, write entity]
    impls := [
      { trait := Code.rooted ["std", "default", "Default"], methods := [defaultMethod] },
      { trait := [.word Naming.repositoryReader], methods := entities.map (Get.method runtime) },
      { trait := [.word Naming.repositoryWriter], methods := entities.map Put.method }] }

end Repository

namespace RepositoryBuilder

def setter (list : StoreList) : Method :=
  let given := Code.applied (Code.rooted ["std", "iter", "IntoIterator"])
    ([.plain "Item", .punct '='] ++ list.item)
  { isPublic := true
    name := Naming.plain ("set_" ++ list.name.name)
    receiver := .mutValue
    params := [(list.name, .plain "impl" :: given)]
    result := some Code.itself
    body := some [
      .assign (Expr.self.field list.name) (((Expr.name list.name).get "into_iter").get "collect"),
      .ret Expr.self] }

def isEmpty (list : StoreList) : Expr := (Expr.name list.name).get "is_empty"

def fill (list : StoreList) (store : Expr) : Stmt :=
  .branch (.holds (isEmpty list))
    [.expr ((Expr.name list.name).call (Naming.plain "push") [store])] none

def build : Method :=
  let store := Naming.plain "store"
  let take (list : StoreList) : Stmt :=
    .decl true list.name none (some (Expr.self.field list.name))
  let fresh := Expr.invoke (Code.step [.word Naming.memoryStore] ⟨"new", false⟩) []
  { isPublic := true
    name := Naming.plain "build"
    receiver := .value
    result := some [.word Naming.repository]
    body := some [take .readers, take .writers,
      .branch (.holds (.binary .or (isEmpty .readers) (isEmpty .writers)))
        [.decl false store (some (Code.shared [.word Naming.memoryStore]))
            (some (.invoke Code.newShared [fresh])),
          fill .readers ((Expr.name store).get "clone"), fill .writers (.name store)] none,
      .ret (.invoke (Code.step [.word Naming.repository] ⟨"new", false⟩)
        (StoreList.all.map fun list => .name list.name))] }

def typeDecl : TypeDecl :=
  { part := .repository
    placement := .store
    name := Naming.repositoryBuilder
    vis := [.plain "pub"]
    attrs := [Code.doc " Configures the store chain of a repository.", Code.doc "",
      Code.doc " An empty reader or writer list falls back to one fresh `InMemoryEntityStore`,",
      Code.doc " shared by both lists when both are empty.", Code.derive [[.plain "Default"]]]
    shape := .struct (StoreList.all.map StoreList.field)
    inherent := StoreList.all.map setter ++ [build] }

end RepositoryBuilder
end EntityGen.Generated
