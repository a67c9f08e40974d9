import EntityGen.Generated.Paths
import EntityGen.Proofs.Generated.Nodes

/-! The variables of a body: the names that it binds, and those that it takes from around it. -/
namespace EntityGen

open scoped List

/-- The words of a code that is an expression or a pattern, as far as they can be variables. -/
def Code.variables (code : Code) : List String :=
  code.filterMap fun
    | .word x => if x.raw || x.name ∉ ["true", "false"] then some x.name else none
    | _ => none

/-- The name of a function that may be a variable: a longer path cannot be one. -/
def Code.called : Code → List String
  | [.word x] => [x.name]
  | _ => []

def Binding.names : Binding → List String
  | .name x => [x.name]
  | .pair first second => [first.name, second.name]
  | .present x => [x.name]

/-- The names that a condition binds in the branch that is taken if it holds. -/
def Cond.names : Cond → List String
  | .holds _ => []
  | .binds binding _ => binding.names

def Node.binds : Node → List String
  | .stmt (.decl _ x _ _) => [x.name]
  | .stmt (.each binding _ _) => binding.names
  | .stmt (.branch cond _ _) => cond.names
  | .expr (.choice _ arms) => arms.flatMap fun arm => arm.pattern.variables
  | .stmt _ | .expr _ => []

def Expr.bound (expr : Expr) : List String := expr.nodes.flatMap Node.binds

def Stmt.bound (stmt : Stmt) : List String := stmt.nodes.flatMap Node.binds

/-- The names that a body binds, however deep, each as often as it is bound. -/
def Body.bound (body : List Stmt) : List String := (Body.nodes body).flatMap Node.binds

/-- Nothing is bound in an expression. Choices are what binds something in one. -/
def Expr.Flat (expr : Expr) : Prop := expr.All fun node => node.binds = []

@[simp] theorem Expr.Flat.bound {expr : Expr} (flat : expr.Flat) : expr.bound = [] :=
  List.flatMap_eq_nil_iff.mpr flat

section Flat

variable {code function : Code} {x method : Ident} {writable : Bool} {receiver operand : Expr}
  {args : List Expr}

open EntityGen.Expr

@[simp] theorem Expr.flat_literal : (literal code).Flat := all_literal.mpr rfl

@[simp] theorem Expr.flat_name : (name x).Flat := all_name.mpr rfl

@[simp] theorem Expr.flat_call :
    (call receiver method args).Flat ↔ receiver.Flat ∧ ∀ arg ∈ args, arg.Flat :=
  all_call.trans (and_iff_right rfl)

@[simp] theorem Expr.flat_invoke : (invoke function args).Flat ↔ ∀ arg ∈ args, arg.Flat :=
  all_invoke.trans (and_iff_right rfl)

@[simp] theorem Expr.flat_ref : (ref writable operand).Flat ↔ operand.Flat :=
  all_ref.trans (and_iff_right rfl)

@[simp] theorem Expr.flat_not : operand.not.Flat ↔ operand.Flat := all_not.trans (and_iff_right rfl)

@[simp] theorem Expr.flat_attempt : operand.attempt.Flat ↔ operand.Flat :=
  all_attempt.trans (and_iff_right rfl)

end Flat

namespace Stmt

variable {writable : Bool} {x : Ident} {type : Option Code} {value source : Expr}
  {binding : Binding} {body : List Stmt}

@[simp] theorem bound_decl : (decl writable x type (some value)).bound = x.name :: value.bound :=
  rfl

@[simp] theorem bound_expr : (expr value).bound = value.bound := rfl

@[simp] theorem bound_ret : (ret value).bound = value.bound := rfl

@[simp] theorem bound_each :
    (each binding source body).bound = binding.names ++ (source.bound ++ Body.bound body) := by
  simp [bound, Stmt.nodes, Node.binds, Expr.bound, Body.bound]

@[simp] theorem bound_branch :
    (branch (.holds value) body none).bound = value.bound ++ Body.bound body := by
  simp [bound, Stmt.nodes, Cond.nodes, Node.binds, Cond.names, Expr.bound, Body.bound]

end Stmt

namespace Body

variable {stmt : Stmt} {body rest : List Stmt}

@[simp] theorem bound_nil : bound [] = [] := rfl

@[simp] theorem bound_cons : bound (stmt :: rest) = stmt.bound ++ bound rest :=
  List.flatMap_append

@[simp] theorem bound_append : bound (body ++ rest) = bound body ++ bound rest := by
  induction body with
  | nil => rfl
  | cons stmt body ih => simp [ih]

end Body

def Stmt.declared : Stmt → List String
  | .decl _ x _ _ => [x.name]
  | _ => []

def Body.declared (body : List Stmt) : List String := body.flatMap Stmt.declared

@[simp] theorem Body.declared_nil : declared [] = [] := rfl

@[simp] theorem Body.declared_cons {stmt : Stmt} {rest : List Stmt} :
    declared (stmt :: rest) = stmt.declared ++ declared rest :=
  List.flatMap_cons

@[simp] theorem Body.declared_append {body rest : List Stmt} :
    declared (body ++ rest) = declared body ++ declared rest :=
  List.flatMap_append

mutual

def Expr.free : Expr → List String
  | .literal code => code.variables
  | .name x => [x.name]
  | .field base _ => base.free
  | .call receiver _ args => receiver.free ++ Expr.freeOfAll args
  | .invoke function args => function.called ++ Expr.freeOfAll args
  | .construct _ fields => fields.map Ident.name
  | .ref _ operand => operand.free
  | .not operand => operand.free
  | .attempt operand => operand.free
  | .binary _ left right => left.free ++ right.free
  | .choice scrutinee arms => scrutinee.free ++ Arm.freeOfAll arms

def Expr.freeOfAll : List Expr → List String
  | [] => []
  | expr :: rest => expr.free ++ Expr.freeOfAll rest

def Arm.free : Arm → List String
  | .mk pattern body => (Body.free body).filter (· ∉ pattern.variables)

def Arm.freeOfAll : List Arm → List String
  | [] => []
  | arm :: rest => arm.free ++ Arm.freeOfAll rest

def Cond.free : Cond → List String
  | .holds expr => expr.free
  | .binds _ value => value.free

def Stmt.free : Stmt → List String
  | .decl _ _ _ none => []
  | .decl _ _ _ (some value) => value.free
  | .assign target value => target.free ++ value.free
  | .expr expr => expr.free
  | .each binding source body => source.free ++ (Body.free body).filter (· ∉ binding.names)
  | .branch cond body none => cond.free ++ (Body.free body).filter (· ∉ cond.names)
  | .branch cond body (some otherwise) =>
    cond.free ++ (Body.free body).filter (· ∉ cond.names) ++ Body.free otherwise
  | .ret value => value.free

/-- The names that a body takes from around it: those that it uses where neither an earlier
declaration nor a loop that stands around them has bound them. -/
def Body.free : List Stmt → List String
  | [] => []
  | stmt :: rest => stmt.free ++ (Body.free rest).filter (· ∉ stmt.declared)

end

def Expr.Within (names : List String) (expr : Expr) : Prop := expr.free ⊆ names

def Stmt.Within (names : List String) (stmt : Stmt) : Prop := stmt.free ⊆ names

def Body.Within (names : List String) (body : List Stmt) : Prop := Body.free body ⊆ names

section Within

variable {names others rest : List String}

theorem filter_subset_iff : names.filter (· ∉ others) ⊆ rest ↔ names ⊆ others ++ rest := by
  simp only [List.subset_def, List.mem_filter, List.mem_append, decide_eq_true_eq, and_imp,
    Classical.or_iff_not_imp_left]

theorem Expr.freeOfAll_subset : {exprs : List Expr} →
    (Expr.freeOfAll exprs ⊆ names ↔ ∀ expr ∈ exprs, expr.Within names)
  | [] => iff_of_true (List.nil_subset _) nofun
  | expr :: rest => by
    rw [Expr.freeOfAll, List.append_subset, freeOfAll_subset, List.forall_mem_cons]
    rfl

theorem Expr.Within.mono {expr : Expr} (within : expr.Within names) (more : names ⊆ others) :
    expr.Within others :=
  List.Subset.trans within more

theorem Body.Within.mono {body : List Stmt} (within : Body.Within names body)
    (more : names ⊆ others) : Body.Within others body :=
  List.Subset.trans within more

namespace Code

variable {code : Code} {x : Ident} {runtime : Path}

@[simp] theorem called_step : (code.step x).called = [] := by
  unfold called
  split
  next same => simpa [step, sign] using congrArg List.length same
  next => rfl

@[simp] theorem called_idFunction : runtime.idFunction.called = [] := called_step

@[simp] theorem called_reconcile : runtime.reconcile.called = [] := called_step

@[simp] theorem called_newShared : newShared.called = [] := rfl

@[simp] theorem called_cloneShared : cloneShared.called = [] := rfl

@[simp] theorem called_clone : clone.called = [] := rfl

@[simp] theorem called_present : present.called = [] := rfl

end Code

namespace Expr

variable {code function : Code} {x method : Ident} {writable : Bool} {receiver operand : Expr}
  {args : List Expr}

@[simp] theorem within_literal : (literal code).Within names ↔ code.variables ⊆ names := .rfl

@[simp] theorem within_name : (name x).Within names ↔ x.name ∈ names := by
  simp [Within, free]

@[simp] theorem within_call : (call receiver method args).Within names ↔
    receiver.Within names ∧ ∀ arg ∈ args, arg.Within names :=
  List.append_subset.trans (and_congr_right' freeOfAll_subset)

@[simp] theorem within_invoke : (invoke function args).Within names ↔
    function.called ⊆ names ∧ ∀ arg ∈ args, arg.Within names :=
  List.append_subset.trans (and_congr_right' freeOfAll_subset)

@[simp] theorem within_ref : (ref writable operand).Within names ↔ operand.Within names := .rfl

@[simp] theorem within_not : operand.not.Within names ↔ operand.Within names := .rfl

@[simp] theorem within_attempt : operand.attempt.Within names ↔ operand.Within names := .rfl

@[simp] theorem within_self : self.Within names ↔ "self" ∈ names := by
  simp [self, Code.variables, Token.plain]

end Expr

namespace Stmt

variable {writable : Bool} {x : Ident} {type : Option Code} {value source : Expr}
  {binding : Binding} {body : List Stmt}

@[simp] theorem within_decl :
    (decl writable x type (some value)).Within names ↔ value.Within names := .rfl

@[simp] theorem within_expr : (expr value).Within names ↔ value.Within names := .rfl

@[simp] theorem within_ret : (ret value).Within names ↔ value.Within names := .rfl

@[simp] theorem within_each : (each binding source body).Within names ↔
    source.Within names ∧ Body.Within (binding.names ++ names) body :=
  List.append_subset.trans (and_congr_right' filter_subset_iff)

@[simp] theorem within_branch : (branch (.holds value) body none).Within names ↔
    value.Within names ∧ Body.Within names body :=
  List.append_subset.trans (and_congr_right' filter_subset_iff)

end Stmt

namespace Body

variable {stmt : Stmt} {body rest : List Stmt}

@[simp] theorem within_nil : Within names [] := List.nil_subset _

@[simp] theorem within_cons :
    Within names (stmt :: rest) ↔ stmt.Within names ∧ Within (stmt.declared ++ names) rest :=
  List.append_subset.trans (and_congr_right' filter_subset_iff)

theorem within_append : Within names (body ++ rest) ↔
    Within names body ∧ Within (declared body ++ names) rest := by
  induction body generalizing names with
  | nil => simp
  | cons stmt body ih =>
    have order : declared body ++ (stmt.declared ++ names) ~ declared (stmt :: body) ++ names := by
      rw [declared_cons, List.append_assoc]
      exact List.perm_append_comm_assoc ..
    rw [List.cons_append, within_cons, within_cons, ih, and_assoc]
    exact and_congr_right' (and_congr_right' ⟨fun within => within.mono order.subset,
      fun within => within.mono order.symm.subset⟩)

end Body
end Within
end EntityGen
