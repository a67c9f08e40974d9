import EntityGen.Generated.Paths
import EntityGen.Resolve.Resolution

/-! The method that reads an entity. An entity that holds others is rebuilt from the cached one:
direct entity properties are read anew by the same kind of method, entities in containers come
from the stores as they are, and all else is copied. If no entity has changed, the cached one is
the answer. -/
namespace EntityGen.Generated.Get

def idVar : Ident := Naming.plain "id"
def cachedVar : Ident := Naming.plain "cached"
def dirtyVar : Ident := Naming.plain "dirty"

structure Counters where
  loops : Nat := 0
  copies : Nat := 0
  deriving DecidableEq, Repr

def idOf (runtime : Path) (source : Expr) : Expr := (Expr.invoke runtime.idFunction [source]).borrow

/-- The cached entity, or the latest version of it if that differs. -/
def reconciled (runtime : Path) (cached latest : Expr) : Expr :=
  .invoke runtime.reconcile [cached, latest, .ref true (.name dirtyVar)]

/-- The present state of a value in a container: what has to be done before, and its expression.
`rebuild` rebuilds a container of this type into a variable. -/
def element (runtime : Path) (rebuild : Expr → Ident → Counters → Body × Counters)
    (type : ResolvedType) (source : Expr) (counters : Counters) : Body × Expr × Counters :=
  match type with
  | .entity target =>
    let latest := Expr.self.call (Naming.readMethod target.name) [idOf runtime source]
    ([], reconciled runtime source latest, counters)
  | type =>
    if type.holdsEntities then
      let copy := Naming.nestedCopy counters.copies
      let (body, counters) := rebuild source copy { counters with copies := counters.copies + 1 }
      (body, .name copy, counters)
    else ([], source.cloned, counters)

def freshCopy (copy : Ident) (container : Container) : Stmt :=
  .decl true copy none (some (.invoke (container.qualified.step ⟨"new", false⟩) []))

def grow (copy : Ident) (container : Container) (values : List Expr) : Stmt :=
  .expr ((Expr.name copy).call (Naming.plain container.insertMethod) values)

def rebuild (runtime : Path) : ResolvedType → Expr → Ident → Counters → Body × Counters
  | .list kind elem, source, copy, counters =>
    let item := Naming.itemVar counters.loops
    let (body, value, next) := element runtime (rebuild runtime elem) elem (.name item)
      { counters with loops := counters.loops + 1 }
    ([freshCopy copy (.list kind),
      .each (.name item) (source.get "iter") (body ++ [grow copy (.list kind) [value]])], next)
  | .map kind key value, source, copy, counters =>
    let keyVar := Naming.keyVar counters.loops
    let valueVar := Naming.valueVar counters.loops
    let (keyBody, newKey, next) := element runtime (rebuild runtime key) key (.name keyVar)
      { counters with loops := counters.loops + 1 }
    let (valueBody, newValue, next) :=
      element runtime (rebuild runtime value) value (.name valueVar) next
    ([freshCopy copy (.map kind),
      .each (.pair keyVar valueVar) (source.get "iter")
        (keyBody ++ valueBody ++ [grow copy (.map kind) [newKey, newValue]])], next)
  | .leaf _, _, _, counters => ([], counters)
  | .entity _, _, _, counters => ([], counters)
  | .other _ _, _, _, counters => ([], counters)

/-- The present state of a property: what has to be done before, and its expression. -/
def property (runtime : Path) (property : Property) (counters : Counters) :
    Body × Expr × Counters :=
  let cached := (Expr.name cachedVar).call (Naming.getter property.name) []
  match property.resolved with
  | .entity target =>
    let latest := Naming.propertyLatest property.name
    let fetched := Expr.self.call (Naming.getMethod target.name) [idOf runtime cached]
    ([.decl false latest none (some (reconciled runtime cached fetched))], .name latest, counters)
  | type =>
    if type.holdsEntities then
      let copy := Naming.propertyCopy property.name
      let (body, counters) := rebuild runtime type cached copy counters
      (body, .name copy, counters)
    else ([], cached.cloned, counters)

def properties (runtime : Path) : List Property → Counters → Body × List Expr
  | [], _ => ([], [])
  | first :: rest, counters =>
    let (body, value, counters) := property runtime first counters
    let (bodies, values) := properties runtime rest counters
    (body ++ bodies, value :: values)

def read (entity : Entity) : Expr :=
  Expr.self.call (Naming.readMethod entity.name) [.name idVar]

def rebuilding (runtime : Path) (entity : Entity) : Body :=
  let (body, args) := properties runtime entity.properties {}
  let rebuilt := Expr.invoke (entity.type.fromStore.step ⟨"new", false⟩) args
  [.decl false cachedVar none (some (.attempt (read entity))),
    .decl true dirtyVar none (some (.literal [.plain "false"]))] ++ body ++
    [.branch (.holds (.not (.name dirtyVar)))
        [.ret (.invoke Code.present [.name cachedVar])] none,
      .ret (.invoke Code.present [.invoke Code.newShared [rebuilt]])]

def body (runtime : Path) (entity : Entity) : Body :=
  if entity.properties.any fun property => property.resolved.holdsEntities then
    rebuilding runtime entity
  else [.ret (read entity)]

def method (runtime : Path) (entity : Entity) : Method :=
  { name := Naming.getMethod entity.name
    params := [(idVar, entity.type.idRef runtime)]
    result := some entity.type.found
    body := some (body runtime entity) }

end EntityGen.Generated.Get
