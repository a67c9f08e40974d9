import EntityGen.Generated.Entity
import EntityGen.Semantics.Execution

/-! What bodies of generated methods call: functions by their paths, the methods of entities as
they are declared, the methods of containers and those of the repository itself. -/
namespace EntityGen

/-- The functions that bodies of generated methods call by their paths. -/
inductive Function where
  | clone
  | newShared
  | cloneShared
  | present
  | newDirtySet
  | mention
  | id
  | reconcile
  | newContainer (container : Container)
  /-- The constructor of an entity type. -/
  | construct (type : EntityType)
  deriving DecidableEq

namespace Function

def code (runtime : Path) : Function → Code
  | clone => Code.clone
  | newShared => Code.newShared
  | cloneShared => Code.cloneShared
  | present => Code.present
  | newDirtySet => Code.hashSet.step ⟨"new", false⟩
  | mention => Code.step [.word Naming.entityRef] ⟨"from", false⟩
  | id => runtime.idFunction
  | reconcile => runtime.reconcile
  | newContainer container => container.qualified.step ⟨"new", false⟩
  | construct type => type.fromStore.step ⟨"new", false⟩

def all (types : List Entity) : List Function :=
  [clone, newShared, cloneShared, present, newDirtySet, mention, id, reconcile] ++
    Container.all.map newContainer ++ types.map fun entity => construct entity.type

def named? (runtime : Path) (types : List Entity) (code : Code) : Option Function :=
  (all types).find? fun function => function.code runtime == code

end Function

namespace Entity

def fieldOf? (entity : Entity) (datum : Datum) (name : Ident) : Option Datum :=
  match datum.value with
  | .seq fields => do
    let i ← entity.properties.findIdx? fun property => property.name.name == name.name
    let property ← entity.properties[i]?
    let value ← fields[i]?
    return ⟨property.resolved, value, datum.iteration.property i⟩
  | _ => none

/-- An entity from the values of its fields, which have to be given once each. -/
def make? (entity : Entity) (values : List (Ident × Operand)) : Option Operand :=
  if values.length = entity.properties.length then do
    let fields ← entity.properties.mapM fun property => do
      let given ← values.find? fun value => value.1.name == property.name.name
      given.2.valueAs? property.resolved
    return .owned (.entity entity.type) (.seq fields)
  else none

/-- What the methods of an entity type can do: they read fields and make entities of the type. -/
def machine (σ : Type) (entity : Entity) : Machine σ where
  call _ _ _ := Run.stuck
  change? _ _ _ := none
  update? _ _ _ := none
  invoke code args :=
    match args with
    | [.datum datum] =>
      if code = Code.clone then return .owned datum.type datum.value else Run.stuck
    | _ => Run.stuck
  field operand name :=
    match operand with
    | .datum datum => do return .datum (← Run.orStuck (entity.fieldOf? datum name))
    | _ => Run.stuck
  construct code values :=
    if code = Code.itself then Run.orStuck (entity.make? values) else Run.stuck

end Entity

namespace TypeDecl

def method? (decl : TypeDecl) (name : String) : Option Method :=
  decl.inherent.find? fun method => method.name.name == name

def traitMethod? (decl : TypeDecl) (trait : Code) (name : String) : Option Method := do
  let impl ← decl.impls.find? fun impl => impl.trait == trait
  impl.methods.find? fun method => method.name.name == name

end TypeDecl

/-- Where the methods of a repository run. Entities are declared for its types; the methods that
they call on the repository are given. -/
structure Host (σ : Type) where
  runtime : Path
  types : List Entity
  methods : Ident → List Operand → StateM σ Operand
  /-- The tag of a new shared value. -/
  allocate : StateM σ Nat
  /-- The order of iteration for the shared value of each tag. -/
  iteration : Nat → Iteration

namespace Host

variable {σ : Type}

def schema (host : Host σ) : Schema := host.types.map Entity.schema

def entity? (host : Host σ) (type : EntityType) : Option Entity :=
  host.types.find? fun entity => entity.type == type

def callDeclared (host : Host σ) (type : EntityType) (method? : TypeDecl → Option Method)
    (self : Option Operand) (args : List Operand) : Run σ Operand := do
  let entity ← Run.orStuck (host.entity? type)
  let method ← Run.orStuck (method? (entity.typeDecl host.runtime))
  Run.orStuck (← Run.effect (method.run (entity.machine σ) self args))

/-- What a shared value is for the methods that are called on it. -/
def content (host : Host σ) (type : EntityType) (cell : Cell) : Datum :=
  ⟨.entity type, cell.value, host.iteration cell.tag⟩

def call (host : Host σ) (target : Operand) (method : Ident) (args : List Operand) :
    Run σ Operand :=
  match target, args with
  | .repository, args => Run.effect (host.methods method args)
  | .shared type cell, args =>
    host.callDeclared type (fun decl => decl.method? method.name)
      (some (.datum (host.content type cell))) args
  | .datum datum, [] => do return .sequence (← Run.orStuck (datum.iterate? method.name))
  | _, _ => Run.stuck

def change? (host : Host σ) (target : Operand) (method : Ident) (args : List Operand) :
    Option Operand :=
  match target, args with
  | .dirtySet set, [.mention entity] =>
    if method.name = "insert" then some (.dirtySet (DirtySet.insert host.schema set entity))
    else none
  | .dirtySet set, [.dirtySet more] =>
    if method.name = "extend" then some (.dirtySet (DirtySet.merge host.schema set more)) else none
  | .newList kind items, [item] =>
    if method.name = (Container.list kind).insertMethod then some (.newList kind (items ++ [item]))
    else none
  | .newMap kind keys values, [key, value] =>
    if method.name = (Container.map kind).insertMethod then
      some (.newMap kind (keys ++ [key]) (values ++ [value]))
    else none
  | _, _ => none

/-- `reconcile` for a cached entity and what is found for it; a change raises the flag. -/
def reconciled (cached : Datum) (latest : Option Value) (flag : String) : Run σ Operand := do
  let (value, changed) := reconcile cached.value latest
  if changed then Run.assign flag (.flag true)
  return .owned cached.type value

def apply (host : Host σ) (function : Function) (args : List Operand) : Run σ Operand :=
  match function, args with
  | .clone, [.datum datum] => return .owned datum.type datum.value
  | .newShared, [.owned (.entity type) value] => do
    return .shared type ⟨← Run.effect host.allocate, value⟩
  | .cloneShared, [.shared type cell] => return .shared type cell
  | .present, [content] => return .present content
  | .newDirtySet, [] => return .dirtySet []
  | .mention, [.shared type cell] => return .mention ⟨type, cell.value⟩
  | .id, [.datum ⟨.entity type, value, iteration⟩] =>
    host.callDeclared type (fun decl => decl.traitMethod? host.runtime.entityTrait "id")
      (some (.datum ⟨.entity type, value, iteration⟩)) []
  | .id, [.shared type cell] =>
    host.callDeclared type (fun decl => decl.traitMethod? host.runtime.entityTrait "id")
      (some (.datum (host.content type cell))) []
  | .reconcile, [.datum cached, .absent, .writable flag] => reconciled cached none flag
  | .reconcile, [.datum cached, .present (.shared _ cell), .writable flag] =>
    reconciled cached (some cell.value) flag
  | .newContainer container, [] => return .newContainer container
  | .construct type, args => host.callDeclared type (fun decl => decl.method? "new") none args
  | _, _ => Run.stuck

def invoke (host : Host σ) (code : Code) (args : List Operand) : Run σ Operand :=
  match Function.named? host.runtime host.types code with
  | some function => host.apply function args
  | none => Run.stuck

/-- What the methods of the repository can do. -/
def machine (host : Host σ) : Machine σ where
  call := host.call
  change? := host.change?
  update? _ _ _ := none
  invoke := host.invoke
  field _ _ := Run.stuck
  construct _ _ := Run.stuck

end Host
end EntityGen
