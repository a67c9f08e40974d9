import EntityGen.Generated.Paths
import EntityGen.Semantics.Operand

/-! How bodies of generated methods run. A block ends the scope of the variables that it declares,
a loop runs its body for each item, and a return ends the method. What is called is the matter of
a machine; calls may have effects on a world. -/
namespace EntityGen

/-- The variables in scope, the latest first. A raw name is the same as one that is not raw. -/
abbrev Env := List (String × Operand)

namespace Env

def find? (env : Env) (name : String) : Option Operand := env.lookup name

def assign (env : Env) (name : String) (value : Operand) : Env :=
  match env with
  | [] => []
  | (other, old) :: rest =>
    if other = name then (name, value) :: rest else (other, old) :: assign rest name value

end Env

inductive Stop where
  | returned (result : Operand)
  /-- There is something that has no meaning. -/
  | stuck

/-- A run in a world of type `σ`. -/
abbrev Run (σ : Type) := StateT Env (ExceptT Stop (StateM σ))

namespace Run

variable {σ : Type}

def stuck : Run σ α := throw .stuck

def orStuck : Option α → Run σ α
  | some a => return a
  | none => stuck

def effect (action : StateM σ α) : Run σ α := liftM action

def read (name : String) : Run σ Operand := do orStuck ((← get).find? name)

def declare (name : String) (value : Operand) : Run σ Unit := modify fun env => (name, value) :: env

def assign (name : String) (value : Operand) : Run σ Unit := modify fun env => env.assign name value

/-- Runs a block, at whose end the variables declared in it are out of scope. -/
def inScope (block : Run σ Unit) : Run σ Unit := do
  let before := (← get).length
  block
  modify fun env => env.drop (env.length - before)

end Run

structure Machine (σ : Type) where
  call : Operand → Ident → List Operand → Run σ Operand
  /-- The call of a method that changes what it is called on, and what this is then. -/
  change? : Operand → Ident → List Operand → Option Operand
  /-- What a value is after an assignment to a field of it. -/
  update? : Operand → Ident → Operand → Option Operand
  invoke : Code → List Operand → Run σ Operand
  field : Operand → Ident → Run σ Operand
  /-- A value of a struct, from the values of its fields. -/
  construct : Code → List (Ident × Operand) → Run σ Operand

/-- A literal is the value that a method belongs to, a truth value, an option without content, or
what a variable refers to. -/
def Code.operand (σ : Type) (code : Code) : Run σ Operand :=
  if code = [.plain "self"] then Run.read "self"
  else if code = [.plain "true"] then return .flag true
  else if code = [.plain "false"] then return .flag false
  else if code = Code.absent then return .absent
  else match code with
    | [.punct '*', .word x] => Run.read x.name
    | _ => Run.stuck

/-- The name by which a variable is assigned to, or the value that a method belongs to. -/
def Expr.variable? : Expr → Option String
  | .name x => some x.name
  | .literal code => if code = [.plain "self"] then some "self" else none
  | _ => none

/-- Gives names to the parts of a value; there is no meaning if it has not these parts. -/
def Binding.bind (σ : Type) : Binding → Operand → Run σ Unit
  | .name x, value => Run.declare x.name value
  | .pair first second, .entry key value => do
    Run.declare first.name (.datum key)
    Run.declare second.name (.datum value)
  | .present x, .present content => Run.declare x.name content
  | _, _ => Run.stuck

mutual

/-- The value of an expression. Choices are left out, which are by patterns. -/
def Expr.eval (machine : Machine σ) : Expr → Run σ Operand
  | .literal code => code.operand σ
  | .name x => Run.read x.name
  | .field base x => do machine.field (← base.eval machine) x
  | .call receiver method args => do
    let target ← receiver.eval machine
    let given ← Expr.evalAll machine args
    match machine.change? target method given, receiver with
    | some changed, .name x => do
      Run.assign x.name changed
      return .nothing
    | some _, _ => return .nothing
    | none, _ => machine.call target method given
  | .invoke function args => do machine.invoke function (← Expr.evalAll machine args)
  | .construct type fields => do
    let values ← fields.mapM fun x => Run.read x.name
    machine.construct type (fields.zip values)
  | .ref true (.name x) => return .writable x.name
  | .ref true _ => Run.stuck
  | .ref false operand => operand.eval machine
  | .not operand => do
    let .flag raised ← operand.eval machine | Run.stuck
    return .flag (!raised)
  | .attempt operand => do
    match ← operand.eval machine with
    | .present content => return content
    | .absent => throw (.returned .absent)
    | _ => Run.stuck
  | .binary .or left right => do
    let .flag raised ← left.eval machine | Run.stuck
    if raised then return .flag true else right.eval machine
  | .binary .eq _ _ | .choice _ _ => Run.stuck

def Expr.evalAll (machine : Machine σ) : List Expr → Run σ (List Operand)
  | [] => return []
  | first :: rest => do
    let value ← first.eval machine
    let values ← Expr.evalAll machine rest
    return value :: values

def Stmt.exec (machine : Machine σ) : Stmt → Run σ Unit
  | .decl _ name _ (some value) => do Run.declare name.name (← value.eval machine)
  | .decl _ _ _ none => Run.stuck
  | .assign (.name x) value => do Run.assign x.name (← value.eval machine)
  | .assign (.field base x) value => do
    let some name := base.variable? | Run.stuck
    let changed ← value.eval machine
    let some whole := machine.update? (← Run.read name) x changed | Run.stuck
    Run.assign name whole
  | .assign _ _ => Run.stuck
  | .expr expr => do let _ ← expr.eval machine
  | .each binding source body => do
    let .sequence items ← source.eval machine | Run.stuck
    items.forM fun item => Run.inScope do
      binding.bind σ item
      Body.exec machine body
  | .branch (.holds cond) body otherwise => do
    let .flag raised ← cond.eval machine | Run.stuck
    if raised then Run.inScope (Body.exec machine body) else Body.execElse machine otherwise
  | .branch (.binds binding value) body otherwise => do
    match ← value.eval machine with
    | .absent => Body.execElse machine otherwise
    | found => Run.inScope do
      binding.bind σ found
      Body.exec machine body
  | .ret value => do throw (.returned (← value.eval machine))

def Body.exec (machine : Machine σ) : List Stmt → Run σ Unit
  | [] => return ()
  | stmt :: rest => do
    stmt.exec machine
    Body.exec machine rest

def Body.execElse (machine : Machine σ) : Option (List Stmt) → Run σ Unit
  | none => return ()
  | some body => Run.inScope (Body.exec machine body)

end

/-- What a body gives to its caller at its end, unless it is stuck. -/
def Stop.result? : Except Stop α → Option Operand
  | .ok _ => some .nothing
  | .error (.returned result) => some result
  | .error .stuck => none

/-- The result of a method, if it has one. -/
def Method.run (machine : Machine σ) (method : Method) (self : Option Operand)
    (args : List Operand) : StateM σ (Option Operand) :=
  match method.body with
  | none => return none
  | some body =>
    if args.length = method.params.length then do
      let params : Env := (method.params.map fun param => param.1.name).zip args
      let start : Env := (self.map fun value => ("self", value)).toList ++ params
      return Stop.result? (← ((Body.exec machine body).run start).run)
    else return none

end EntityGen
