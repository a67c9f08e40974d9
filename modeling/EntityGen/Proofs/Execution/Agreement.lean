import EntityGen.Proofs.Execution.Scopes
import EntityGen.Proofs.Generated.Nodes

/-! A run depends on no other calls than those that stand in what is run. -/
namespace EntityGen

/-- What a body calls on a value: the expression of that value, the method and the arguments. -/
abbrev Calls := Expr → Ident → List Expr → Prop

def Node.CallsOnly (calls : Calls) : Node → Prop
  | .expr (.call receiver method args) => calls receiver method args
  | .expr _ | .stmt _ => True

theorem Node.CallsOnly.mono {calls more : Calls} {node : Node} (only : node.CallsOnly calls)
    (larger : ∀ receiver method args, calls receiver method args → more receiver method args) :
    node.CallsOnly more := by
  unfold CallsOnly at only ⊢
  split at only
  · exact larger _ _ _ only
  · trivial
  · trivial

namespace Machine

variable {σ : Type}

def calling (machine : Machine σ) (call : Operand → Ident → List Operand → Run σ Operand) :
    Machine σ :=
  { machine with call }

/-- Other calls give the same, as far as they are made by a method and a number of arguments that
a body contains. -/
def Agrees (machine : Machine σ) (call : Operand → Ident → List Operand → Run σ Operand)
    (calls : Calls) : Prop :=
  ∀ receiver method args, calls receiver method args → ∀ target given,
    given.length = args.length → call target method given = machine.call target method given

end Machine

section Congruence

variable {σ α : Type} {machine : Machine σ} {calls : Calls}
  {call : Operand → Ident → List Operand → Run σ Operand}

/-- There are as many values as expressions. -/
theorem Expr.evalAll_bind_congr {exprs : List Expr} {f g : List Operand → Run σ α}
    (same : ∀ values, values.length = exprs.length → f values = g values) :
    (Expr.evalAll machine exprs >>= f) = (Expr.evalAll machine exprs >>= g) := by
  induction exprs generalizing f g with
  | nil => simpa [evalAll] using same [] rfl
  | cons first rest ih =>
    simp only [evalAll, bind_assoc, pure_bind]
    refine bind_congr fun value => ih fun values lengths => same _ ?_
    simp [lengths]

mutual

theorem Expr.eval_calling (agrees : machine.Agrees call calls) : (expr : Expr) →
    expr.All (Node.CallsOnly calls) →
    expr.eval (machine.calling call) = expr.eval machine
  | .literal _, _ | .name _, _ | .construct _ _, _ | .choice _ _, _ => rfl
  | .field base x, only => by
    have inner := Expr.eval_calling agrees base (Expr.all_field.mp only).2
    rw [Expr.eval, Expr.eval, inner]
    rfl
  | .call receiver method args, only => by
    obtain ⟨this, onlyReceiver, onlyArgs⟩ := Expr.all_call.mp only
    rw [Expr.eval, Expr.eval, Expr.eval_calling agrees receiver onlyReceiver,
      Expr.evalAll_calling agrees args onlyArgs]
    refine bind_congr fun target => Expr.evalAll_bind_congr fun given lengths => ?_
    have same := agrees receiver method args this target given lengths
    simp only [Machine.calling, same]
  | .invoke function args, only => by
    rw [Expr.eval, Expr.eval, Expr.evalAll_calling agrees args (Expr.all_invoke.mp only).2]
    rfl
  | .ref true (.name _), _ => rfl
  | .ref true operand, _ => by cases operand <;> rfl
  | .ref false operand, only => by
    rw [Expr.eval, Expr.eval, Expr.eval_calling agrees operand (Expr.all_ref.mp only).2]
  | .not operand, only => by
    rw [Expr.eval, Expr.eval, Expr.eval_calling agrees operand (Expr.all_not.mp only).2]
  | .attempt operand, only => by
    rw [Expr.eval, Expr.eval, Expr.eval_calling agrees operand (Expr.all_attempt.mp only).2]
  | .binary .or left right, only => by
    obtain ⟨-, onlyLeft, onlyRight⟩ := Expr.all_binary.mp only
    rw [Expr.eval, Expr.eval, Expr.eval_calling agrees left onlyLeft,
      Expr.eval_calling agrees right onlyRight]
  | .binary .eq _ _, _ => rfl

theorem Expr.evalAll_calling (agrees : machine.Agrees call calls) : (exprs : List Expr) →
    (∀ expr ∈ exprs, expr.All (Node.CallsOnly calls)) →
    Expr.evalAll (machine.calling call) exprs = Expr.evalAll machine exprs
  | [], _ => rfl
  | first :: rest, only => by
    obtain ⟨onlyFirst, onlyRest⟩ := List.forall_mem_cons.mp only
    rw [Expr.evalAll, Expr.evalAll, Expr.eval_calling agrees first onlyFirst,
      Expr.evalAll_calling agrees rest onlyRest]

theorem Stmt.exec_calling (agrees : machine.Agrees call calls) : (stmt : Stmt) →
    stmt.All (Node.CallsOnly calls) →
    stmt.exec (machine.calling call) = stmt.exec machine
  | .decl _ _ _ (some value), only => by
    rw [Stmt.exec, Stmt.exec, Expr.eval_calling agrees value (Stmt.all_decl.mp only).2]
  | .decl _ _ _ none, _ => rfl
  | .assign target value, only => by
    have inner := Expr.eval_calling agrees value (Stmt.all_assign.mp only).2.2
    cases target with
    | field =>
      simp only [Stmt.exec, inner]
      rfl
    | _ => simp only [Stmt.exec, inner]
  | .expr value, only => by
    rw [Stmt.exec, Stmt.exec, Expr.eval_calling agrees value (Stmt.all_expr.mp only).2]
  | .each binding source body, only => by
    obtain ⟨-, onlySource, onlyBody⟩ := Stmt.all_each.mp only
    rw [Stmt.exec, Stmt.exec, Expr.eval_calling agrees source onlySource,
      Body.exec_calling agrees body onlyBody]
  | .branch cond body none, only => by
    obtain ⟨-, onlyCond, onlyBody⟩ := Stmt.all_branch_none.mp only
    have inner := Body.exec_calling agrees body onlyBody
    cases cond with
    | holds value =>
      simp only [Stmt.exec, Expr.eval_calling agrees value onlyCond, inner, Body.execElse]
    | binds binding value =>
      simp only [Stmt.exec, Expr.eval_calling agrees value onlyCond, inner, Body.execElse]
  | .branch cond body (some otherwise), only => by
    obtain ⟨-, ⟨onlyCond, onlyBody⟩, onlyElse⟩ := Stmt.all_branch.mp only
    have inner := Body.exec_calling agrees body onlyBody
    have outer := Body.exec_calling agrees otherwise onlyElse
    cases cond with
    | holds value =>
      simp only [Stmt.exec, Expr.eval_calling agrees value onlyCond, inner, Body.execElse, outer]
    | binds binding value =>
      simp only [Stmt.exec, Expr.eval_calling agrees value onlyCond, inner, Body.execElse, outer]
  | .ret value, only => by
    rw [Stmt.exec, Stmt.exec, Expr.eval_calling agrees value (Stmt.all_ret.mp only).2]

theorem Body.exec_calling (agrees : machine.Agrees call calls) : (body : List Stmt) →
    Body.All (Node.CallsOnly calls) body →
    Body.exec (machine.calling call) body = Body.exec machine body
  | [], _ => rfl
  | first :: rest, only => by
    obtain ⟨onlyFirst, onlyRest⟩ := Body.all_cons.mp only
    rw [Body.exec, Body.exec, Stmt.exec_calling agrees first onlyFirst,
      Body.exec_calling agrees rest onlyRest]

end

theorem Method.run_calling (agrees : machine.Agrees call calls) {method : Method}
    (only : ∀ body ∈ method.body, Body.All (Node.CallsOnly calls) body) (self : Option Operand)
    (args : List Operand) :
    method.run (machine.calling call) self args = method.run machine self args := by
  unfold run
  split
  next => rfl
  next body isBody => rw [Body.exec_calling agrees body (only body isBody)]

end Congruence
end EntityGen
