import EntityGen.Generated.MemoryStore
import EntityGen.Generated.Repository
import EntityGen.Semantics.Nesting

/-! How the methods run by which a repository is built, asks its stores and writes to them, and
those of the stores in memory. Stores are known by their numbers in a world; whatever is done with
one of them is done there. -/
namespace EntityGen

namespace World

/-- The tag of a new shared value. -/
def allocate : StateM World Nat := modifyGet fun world =>
  (world.next, { world with next := world.next + 1 })

/-- The number of a new store, which is empty. -/
def newStore : StateM World Nat := modifyGet fun world =>
  (world.stores.length, { world with stores := world.stores ++ [Store.empty] })

end World

namespace Operand

/-- What is found for an entity of a type. -/
def found (type : EntityType) : Option Cell → Operand
  | some cell => .present (.shared type cell)
  | none => .absent

def stores (numbers : List Nat) : Operand := .newList .vec (numbers.map .store)

def store? : Operand → Option Nat
  | .store number => some number
  | _ => none

def stores? : Operand → Option (List Nat)
  | .newList .vec items => items.mapM store?
  | _ => none

end Operand

namespace Repository

def list? (repository : Repository) (name : Ident) : Option (List Nat) :=
  if name.name = "readers" then some repository.readers
  else if name.name = "writers" then some repository.writers
  else none

def withList? (repository : Repository) (name : Ident) (stores : List Nat) : Option Repository :=
  if name.name = "readers" then some { repository with readers := stores }
  else if name.name = "writers" then some { repository with writers := stores }
  else none

/-- A struct from the values of its two fields, which are given by their names. -/
def ofFields? (values : List (Ident × Operand)) : Option Repository := do
  let readers ← values.find? fun value => value.1.name == "readers"
  let writers ← values.find? fun value => value.1.name == "writers"
  if values.length = 2 then return ⟨← readers.2.stores?, ← writers.2.stores?⟩ else none

end Repository

namespace TypeDecl

/-- A method that the type has as one of its traits, whichever. -/
def implMethod? (decl : TypeDecl) (name : String) : Option Method :=
  (decl.impls.flatMap ImplDecl.methods).find? fun method => method.name.name == name

end TypeDecl

namespace Host

/-- The type whose entities a field of a store holds. -/
def table? {σ : Type} (host : Host σ) (field : Ident) : Option EntityType :=
  (host.types.find? fun entity => (Naming.byIdField entity.name).toOption == some field).map
    Entity.type

variable (host : Host World)

/-- The methods of what is not generated: the maps in which a store keeps its entities, options,
and lists of stores. A borrowed map is not told apart from the field that it is in. -/
def callLibrary (target : Operand) (method : Ident) (args : List Operand) : Run World Operand :=
  match target, method.name, args with
  | .table store type, "borrow", [] | .table store type, "borrow_mut", [] =>
    return .table store type
  | .table store type, "get", [.owned _ id] =>
    Run.effect do return .found type ((← get).get store ⟨type, id⟩)
  | .table store type, "insert", [.owned _ id, .shared _ cell] => Run.effect do
    let before := (← get).get store ⟨type, id⟩
    modify fun world => world.putCell [store] ⟨type, id⟩ cell
    return .found type before
  | .present (.shared type cell), "cloned", [] => return .present (.shared type cell)
  | .absent, "cloned", [] => return .absent
  | .store number, "clone", [] => return .store number
  | .newList _ items, "is_empty", [] => return .flag items.isEmpty
  | .newList _ items, "iter", [] | .newList _ items, "into_iter", [] => return .sequence items
  | .sequence items, "collect", [] => return .newList .vec items
  | _, _, _ => Run.stuck

/-- What methods can do that call no methods of generated types: they use the fields of stores and
of structs with two lists of stores, and make such values. -/
def baseMachine : Machine World where
  call := callLibrary
  change? := host.change?
  update?
    | .lists repository, name, value => do
      return .lists (← repository.withList? name (← value.stores?))
    | _, _, _ => none
  invoke code args :=
    match args with
    | [] => if code = Code.default then Run.effect (Operand.store <$> World.newStore)
      else host.invoke code []
    | [.store number] =>
      if code = Code.newShared then return .store number else host.invoke code [.store number]
    | args => host.invoke code args
  field
    | .store number, name => do return .table number (← Run.orStuck (host.table? name))
    | .lists repository, name => do return .stores (← Run.orStuck (repository.list? name))
    | _, _ => Run.stuck
  construct code values :=
    if code = Code.itself then do return .lists (← Run.orStuck (Repository.ofFields? values))
    else Run.stuck

/-- A method that a store in memory has as one of its traits. -/
def storeMethod? (name : Ident) : Option Method := do
  let decl ← (Generated.MemoryStore.typeDecl host.runtime host.types).toOption
  decl.implMethod? name.name

/-- What the methods of a repository and of its builder can do on top of that: they call the
methods of their stores and two constructors. -/
def storeMachine : Machine World :=
  { host.baseMachine with
    call := fun target method args =>
      match target, host.storeMethod? method with
      | .store number, some body => do
        Run.orStuck (← Run.effect (body.run host.baseMachine (some (.store number)) args))
      | target, _ => callLibrary target method args
    invoke := fun code args =>
      if code = Code.step [.word Naming.memoryStore] ⟨"new", false⟩ then do
        Run.orStuck (← Run.effect
          (Generated.MemoryStore.constructor.run host.baseMachine none args))
      else if code = Code.step [.word Naming.repository] ⟨"new", false⟩ then do
        Run.orStuck (← Run.effect
          (Generated.Repository.constructor.run host.baseMachine none args))
      else host.baseMachine.invoke code args }

/-- The methods by which a repository asks its stores and writes to them. -/
def storeMethods (repository : Repository) (name : Ident) (args : List Operand) :
    StateM World Operand :=
  match (Generated.Repository.typeDecl host.runtime host.types).method? name.name with
  | some method => do
    return (← method.run host.storeMachine (some (.lists repository)) args).getD .nothing
  | none => return .nothing

/-- Where the methods of types run, in a world of stores; there is no repository. -/
def ofTypes (runtime : Path) (types : List Entity) (iteration : Nat → Iteration) : Host World :=
  { runtime, types, iteration, allocate := World.allocate, methods := fun _ _ => pure .nothing }

/-- Where the methods of a repository run that has stores in a world. -/
def ofRepository (runtime : Path) (types : List Entity) (iteration : Nat → Iteration)
    (repository : Repository) : Host World :=
  let host := ofTypes runtime types iteration
  { host with methods := host.storeMethods repository }

end Host
end EntityGen
