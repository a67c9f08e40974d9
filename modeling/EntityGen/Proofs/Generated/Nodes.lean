import EntityGen.Generated.Body

/-! The parts of a body: every expression and every statement in it, however deep. A property of all
parts is stated of a body part by part. -/
namespace EntityGen

inductive Node where
  | expr (expr : Expr)
  | stmt (stmt : Stmt)

mutual

def Expr.nodes : Expr → List Node
  | .literal code => [.expr (.literal code)]
  | .name x => [.expr (.name x)]
  | .field base x => .expr (.field base x) :: base.nodes
  | .call receiver method args =>
    .expr (.call receiver method args) :: (receiver.nodes ++ Expr.nodesOfAll args)
  | .invoke function args => .expr (.invoke function args) :: Expr.nodesOfAll args
  | .construct type fields => [.expr (.construct type fields)]
  | .ref writable operand => .expr (.ref writable operand) :: operand.nodes
  | .not operand => .expr (.not operand) :: operand.nodes
  | .attempt operand => .expr (.attempt operand) :: operand.nodes
  | .binary op left right => .expr (.binary op left right) :: (left.nodes ++ right.nodes)
  | .choice scrutinee arms =>
    .expr (.choice scrutinee arms) :: (scrutinee.nodes ++ Arm.nodesOfAll arms)

def Expr.nodesOfAll : List Expr → List Node
  | [] => []
  | expr :: rest => expr.nodes ++ Expr.nodesOfAll rest

def Arm.nodes : Arm → List Node
  | .mk _ body => Body.nodes body

def Arm.nodesOfAll : List Arm → List Node
  | [] => []
  | arm :: rest => arm.nodes ++ Arm.nodesOfAll rest

def Cond.nodes : Cond → List Node
  | .holds expr => expr.nodes
  | .binds _ value => value.nodes

def Stmt.nodes : Stmt → List Node
  | .decl writable x type none => [.stmt (.decl writable x type none)]
  | .decl writable x type (some value) => .stmt (.decl writable x type (some value)) :: value.nodes
  | .assign target value => .stmt (.assign target value) :: (target.nodes ++ value.nodes)
  | .expr expr => .stmt (.expr expr) :: expr.nodes
  | .each binding source body =>
    .stmt (.each binding source body) :: (source.nodes ++ Body.nodes body)
  | .branch cond body none => .stmt (.branch cond body none) :: (cond.nodes ++ Body.nodes body)
  | .branch cond body (some otherwise) =>
    .stmt (.branch cond body (some otherwise)) ::
      (cond.nodes ++ Body.nodes body ++ Body.nodes otherwise)
  | .ret value => .stmt (.ret value) :: value.nodes

/-- The parts of a body in the order in which they are written. -/
def Body.nodes : List Stmt → List Node
  | [] => []
  | stmt :: rest => stmt.nodes ++ Body.nodes rest

end

variable {p : Node → Prop}

def Expr.All (p : Node → Prop) (expr : Expr) : Prop := ∀ node ∈ expr.nodes, p node

def Stmt.All (p : Node → Prop) (stmt : Stmt) : Prop := ∀ node ∈ stmt.nodes, p node

def Body.All (p : Node → Prop) (body : List Stmt) : Prop := ∀ node ∈ Body.nodes body, p node

def Arm.pattern : Arm → Code
  | .mk pattern _ => pattern

def Arm.body : Arm → List Stmt
  | .mk _ body => body

theorem forall_mem_cons_append {first : Node} {nodes others : List Node} :
    (∀ node ∈ first :: (nodes ++ others), p node) ↔
      p first ∧ (∀ node ∈ nodes, p node) ∧ ∀ node ∈ others, p node := by
  rw [List.forall_mem_cons, List.forall_mem_append]

theorem Expr.forall_mem_nodesOfAll : {exprs : List Expr} →
    ((∀ node ∈ nodesOfAll exprs, p node) ↔ ∀ expr ∈ exprs, expr.All p)
  | [] => iff_of_true nofun nofun
  | _ :: _ => by
    rw [List.forall_mem_cons, ← forall_mem_nodesOfAll]
    exact List.forall_mem_append

theorem Arm.forall_mem_nodesOfAll : {arms : List Arm} →
    ((∀ node ∈ nodesOfAll arms, p node) ↔ ∀ arm ∈ arms, Body.All p arm.body)
  | [] => iff_of_true nofun nofun
  | .mk _ _ :: _ => by
    rw [List.forall_mem_cons, ← forall_mem_nodesOfAll]
    exact List.forall_mem_append

namespace Expr

variable {code function type : Code} {x method : Ident} {fields : List Ident} {writable : Bool}
  {op : BinaryOp} {base receiver operand left right scrutinee : Expr} {args : List Expr}
  {arms : List Arm}

@[simp] theorem all_literal : (literal code).All p ↔ p (.expr (literal code)) :=
  List.forall_mem_singleton

@[simp] theorem all_name : (name x).All p ↔ p (.expr (name x)) := List.forall_mem_singleton

@[simp] theorem all_field : (field base x).All p ↔ p (.expr (field base x)) ∧ base.All p :=
  List.forall_mem_cons

@[simp] theorem all_call : (call receiver method args).All p ↔
    p (.expr (call receiver method args)) ∧ receiver.All p ∧ ∀ arg ∈ args, arg.All p :=
  forall_mem_cons_append.trans (and_congr_right' (and_congr_right' forall_mem_nodesOfAll))

@[simp] theorem all_invoke : (invoke function args).All p ↔
    p (.expr (invoke function args)) ∧ ∀ arg ∈ args, arg.All p :=
  List.forall_mem_cons.trans (and_congr_right' forall_mem_nodesOfAll)

@[simp] theorem all_construct :
    (construct type fields).All p ↔ p (.expr (construct type fields)) :=
  List.forall_mem_singleton

@[simp] theorem all_ref :
    (ref writable operand).All p ↔ p (.expr (ref writable operand)) ∧ operand.All p :=
  List.forall_mem_cons

@[simp] theorem all_not : operand.not.All p ↔ p (.expr operand.not) ∧ operand.All p :=
  List.forall_mem_cons

@[simp] theorem all_attempt :
    operand.attempt.All p ↔ p (.expr operand.attempt) ∧ operand.All p :=
  List.forall_mem_cons

@[simp] theorem all_binary : (binary op left right).All p ↔
    p (.expr (binary op left right)) ∧ left.All p ∧ right.All p :=
  forall_mem_cons_append

@[simp] theorem all_choice : (choice scrutinee arms).All p ↔
    p (.expr (choice scrutinee arms)) ∧ scrutinee.All p ∧ ∀ arm ∈ arms, Body.All p arm.body :=
  forall_mem_cons_append.trans (and_congr_right' (and_congr_right' Arm.forall_mem_nodesOfAll))

end Expr

def Cond.All (p : Node → Prop) (cond : Cond) : Prop := ∀ node ∈ cond.nodes, p node

@[simp] theorem Cond.all_holds {expr : Expr} : (holds expr).All p ↔ expr.All p := .rfl

@[simp] theorem Cond.all_binds {binding : Binding} {value : Expr} :
    (binds binding value).All p ↔ value.All p := .rfl

namespace Stmt

variable {writable : Bool} {x : Ident} {type : Option Code} {value target source : Expr}
  {binding : Binding} {cond : Cond} {body otherwise : List Stmt}

@[simp] theorem all_decl_none :
    (decl writable x type none).All p ↔ p (.stmt (decl writable x type none)) :=
  List.forall_mem_singleton

@[simp] theorem all_decl : (decl writable x type (some value)).All p ↔
    p (.stmt (decl writable x type (some value))) ∧ value.All p :=
  List.forall_mem_cons

@[simp] theorem all_assign : (assign target value).All p ↔
    p (.stmt (assign target value)) ∧ target.All p ∧ value.All p :=
  forall_mem_cons_append

@[simp] theorem all_expr : (expr value).All p ↔ p (.stmt (expr value)) ∧ value.All p :=
  List.forall_mem_cons

@[simp] theorem all_each : (each binding source body).All p ↔
    p (.stmt (each binding source body)) ∧ source.All p ∧ Body.All p body :=
  forall_mem_cons_append

@[simp] theorem all_branch_none : (branch cond body none).All p ↔
    p (.stmt (branch cond body none)) ∧ cond.All p ∧ Body.All p body :=
  forall_mem_cons_append

@[simp] theorem all_branch : (branch cond body (some otherwise)).All p ↔
    p (.stmt (branch cond body (some otherwise))) ∧ (cond.All p ∧ Body.All p body) ∧
      Body.All p otherwise :=
  forall_mem_cons_append.trans
    (and_congr_right' (and_congr_left' List.forall_mem_append))

@[simp] theorem all_ret : (ret value).All p ↔ p (.stmt (ret value)) ∧ value.All p :=
  List.forall_mem_cons

end Stmt

namespace Body

variable {stmt : Stmt} {body rest : List Stmt}

@[simp] theorem all_nil : All p [] := nofun

@[simp] theorem all_cons : All p (stmt :: rest) ↔ stmt.All p ∧ All p rest :=
  List.forall_mem_append

@[simp] theorem all_append : All p (body ++ rest) ↔ All p body ∧ All p rest := by
  induction body with
  | nil => simp
  | cons stmt body ih => simp [ih, and_assoc]

end Body
end EntityGen
