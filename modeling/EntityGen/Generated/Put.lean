import EntityGen.Generated.Paths
import EntityGen.Resolve.Resolution

/-! The method that stores an entity. It writes the entity itself and then stores every entity
that stands in one of its properties, directly or in containers, and gives the set of all that was
written. -/
namespace EntityGen.Generated.Put

def entityVar : Ident := Naming.plain "entity"
def dirtyVar : Ident := Naming.plain "dirty"

def store (target : EntityType) (source : Expr) : Stmt :=
  .expr ((Expr.name dirtyVar).call (Naming.plain "extend")
    [Expr.self.call (Naming.putMethod target.name) [source.cloned]])

/-- Stores each entity in a value. Loops are numbered from `loops` on, so that their variables
differ throughout a method; the result also gives the next free number. -/
def walk : ResolvedType → Expr → Nat → Body × Nat
  | .entity target, source, loops => ([store target source], loops)
  | .list _ elem, source, loops =>
    if elem.holdsEntities then
      let item := Naming.itemVar loops
      let (body, next) := walk elem (.name item) (loops + 1)
      ([.each (.name item) (source.get "iter") body], next)
    else ([], loops)
  | .map _ key value, source, loops =>
    let keyVar := Naming.keyVar loops
    let valueVar := Naming.valueVar loops
    match key.holdsEntities, value.holdsEntities with
    | true, true =>
      let (keys, next) := walk key (.name keyVar) (loops + 1)
      let (values, next) := walk value (.name valueVar) next
      ([.each (.pair keyVar valueVar) (source.get "iter") (keys ++ values)], next)
    | true, false =>
      let (body, next) := walk key (.name keyVar) (loops + 1)
      ([.each (.name keyVar) (source.get "keys") body], next)
    | false, true =>
      let (body, next) := walk value (.name valueVar) (loops + 1)
      ([.each (.name valueVar) (source.get "values") body], next)
    | false, false => ([], loops)
  | .leaf _, _, loops => ([], loops)
  | .other _ _, _, loops => ([], loops)

def walkAll : List Property → Nat → Body
  | [], _ => []
  | property :: rest, loops =>
    let source := (Expr.name entityVar).call (Naming.getter property.name) []
    let (body, next) := walk property.resolved source loops
    body ++ walkAll rest next

def body (entity : Entity) : Body :=
  let own := Expr.invoke Code.cloneShared [(Expr.name entityVar).borrow]
  let wrapped := Expr.invoke (Code.step [.word Naming.entityRef] ⟨"from", false⟩) [own]
  [.decl false entityVar none (some (.invoke Code.newShared [.name entityVar])),
    .decl true dirtyVar none (some (.invoke (Code.hashSet.step ⟨"new", false⟩) [])),
    .expr ((Expr.name dirtyVar).call (Naming.plain "insert") [wrapped]),
    .expr (Expr.self.call (Naming.writeMethod entity.name) [own])] ++
    walkAll entity.properties 0 ++ [.ret (.name dirtyVar)]

def method (entity : Entity) : Method :=
  { name := Naming.putMethod entity.name
    receiver := .refMut
    params := [(entityVar, entity.type.fromStore)]
    result := some (Code.hashSet.applied [.word Naming.entityRef])
    body := some (body entity) }

end EntityGen.Generated.Put
