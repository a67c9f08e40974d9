import EntityGen.Generated.Paths
import EntityGen.Resolve.Resolution

/-! The type of references to entities. It has a variant for each type of entity. Two references
are equal if they hold equal entities of one type; only the type and the id are hashed, which
agrees with that. -/
namespace EntityGen.Generated.EntityRef

def entityVar : Ident := Naming.plain "entity"
def firstVar : Ident := Naming.plain "first"
def secondVar : Ident := Naming.plain "second"
def stateVar : Ident := Naming.plain "state"

def variantOf (entity : Entity) (content : Code) : Code :=
  Code.itself.step entity.name ++ Code.within .round content

def typeName (runtime : Path) (entity : Entity) : Code :=
  (Code.applied [] (entity.type.fromStore ++ .plain "as" :: runtime.entityTrait)).step
    ⟨"ENTITY_TYPE", false⟩

def entityType (runtime : Path) (entities : List Entity) : Method :=
  let arms := entities.map fun entity =>
    Arm.value (variantOf entity [.plain "_"]) (.literal (typeName runtime entity))
  { attrs := [Code.doc " Fully qualified type name of the referenced entity."]
    isPublic := true
    name := Naming.plain "entity_type"
    result := some [.punct '&', .lifetime "\x27static", .plain "str"]
    body := some [.ret (.choice Expr.self arms)] }

def eqMethod (entities : List Entity) : Method :=
  let arms := entities.map fun entity =>
    let both := Code.commas
      [variantOf entity [.word firstVar], variantOf entity [.word secondVar]]
    Arm.value (Code.within .round both) (.binary .eq (.name firstVar) (.name secondVar))
  let otherwise := Arm.value [.plain "_"] (.literal [.plain "false"])
  let pair := Code.within .round [.plain "self", .punct ',', .plain "other"]
  { attrs := [Code.allow [.plain "unreachable_patterns"]]
    name := Naming.plain "eq"
    params := [(Naming.plain "other", .punct '&' :: Code.itself)]
    result := some [.plain "bool"]
    body := some [.ret (.choice (.literal pair) (arms ++ [otherwise]))] }

def hashMethod (runtime : Path) (entities : List Entity) : Method :=
  let arms := entities.map fun entity =>
    let target := Expr.literal [.punct '*', .punct '*', .word entityVar]
    let id := Expr.invoke runtime.idFunction [target.borrow]
    Arm.mk (variantOf entity [.word entityVar])
      [.expr (.invoke Code.hash [.literal (typeName runtime entity), .name stateVar]),
        .expr (.invoke Code.hash [id.borrow, .name stateVar])]
  { name := Naming.plain "hash"
    generics := Code.applied []
      ([.plain "H", .punct ':'] ++ Code.rooted ["std", "hash", "Hasher"])
    params := [(stateVar, [.punct '&', .plain "mut", .plain "H"])]
    body := some [.ret (.choice Expr.self arms)] }

def fromImpl (entity : Entity) (type : Code) (content : Expr) : ImplDecl :=
  { trait := Code.applied (Code.rooted ["std", "convert", "From"]) type
    methods := [
      { name := Naming.plain "from"
        receiver := .absent
        params := [(entityVar, type)]
        result := some Code.itself
        body := some [.ret (.invoke (Code.itself.step entity.name) [content])] }] }

def fromImpls (entity : Entity) : List ImplDecl :=
  let path := entity.type.fromStore
  [fromImpl entity path (.invoke Code.newShared [.name entityVar]),
    fromImpl entity (Code.shared path) (.name entityVar)]

def typeDecl (runtime : Path) (entities : List Entity) : TypeDecl :=
  { part := .repositoryInterfaces
    placement := .store
    name := Naming.entityRef
    vis := [.plain "pub"]
    attrs := [Code.doc " A stored entity, as reported in the dirty set of `put_*`.",
      Code.derive [[.plain "Debug"], [.plain "Clone"]]]
    shape := .enum (entities.map fun entity =>
      { name := entity.name, payload := Code.shared entity.type.fromStore })
    inherent := [entityType runtime entities]
    impls := [{ trait := Code.rooted ["std", "cmp", "PartialEq"], methods := [eqMethod entities] },
      { trait := Code.rooted ["std", "cmp", "Eq"] },
      { trait := Code.rooted ["std", "hash", "Hash"], methods := [hashMethod runtime entities] }] ++
      entities.flatMap fromImpls }

end EntityGen.Generated.EntityRef
