import EntityGen.Semantics.Execution
import Mathlib.Data.List.Forall2

/-! Variables in scope, and how blocks run. What a name stands for does not depend on variables of
other names, and an assignment leaves all of them as they are. -/
namespace EntityGen

namespace Env

variable {env locals : Env} {name other : String} {value : Operand}

def names (env : Env) : List String := env.map Prod.fst

@[simp] theorem names_nil : names [] = [] := rfl

@[simp] theorem names_cons : names ((name, value) :: env) = name :: env.names := rfl

@[simp] theorem names_append : names (locals ++ env) = locals.names ++ env.names :=
  List.map_append

@[simp] theorem find?_cons_self : find? ((name, value) :: env) name = some value := by
  simp [find?]

theorem find?_cons_of_ne (apart : other ≠ name) :
    find? ((other, value) :: env) name = env.find? name := by
  simp [find?, List.lookup_cons, beq_eq_false_iff_ne.mpr apart.symm]

theorem find?_append_of_notMem (absent : name ∉ locals.names) :
    find? (locals ++ env) name = env.find? name := by
  induction locals with
  | nil => rfl
  | cons first rest ih =>
    obtain ⟨other, value⟩ := first
    simp only [names_cons, List.mem_cons, not_or] at absent
    rw [List.cons_append, find?_cons_of_ne (Ne.symm absent.1), ih absent.2]

theorem find?_append_of_mem (present : name ∈ locals.names) :
    find? (locals ++ env) name = locals.find? name := by
  induction locals with
  | nil => cases present
  | cons first rest ih =>
    obtain ⟨other, value⟩ := first
    rw [List.cons_append]
    by_cases same : other = name
    · subst same; simp
    · rw [find?_cons_of_ne same, find?_cons_of_ne same]
      exact ih ((List.mem_cons.mp present).resolve_left (Ne.symm same))

theorem find?_of_mem (nodup : env.names.Nodup) (member : (name, value) ∈ env) :
    env.find? name = some value := by
  induction env with
  | nil => cases member
  | cons first rest ih =>
    rcases List.mem_cons.mp member with rfl | later
    · exact find?_cons_self
    · obtain ⟨absent, nodup⟩ := List.nodup_cons.mp nodup
      have apart : first.1 ≠ name := fun same => absent (same ▸ List.mem_map_of_mem later)
      rw [find?_cons_of_ne apart, ih nodup later]

@[simp] theorem assign_cons_self (old : Operand) :
    assign ((name, old) :: env) name value = (name, value) :: env := if_pos rfl

theorem assign_cons_of_ne (apart : other ≠ name) (old : Operand) :
    assign ((other, old) :: env) name value = (other, old) :: env.assign name value := if_neg apart

theorem assign_append_of_notMem (absent : name ∉ locals.names) :
    assign (locals ++ env) name value = locals ++ env.assign name value := by
  induction locals with
  | nil => rfl
  | cons first rest ih =>
    obtain ⟨other, old⟩ := first
    simp only [names_cons, List.mem_cons, not_or] at absent
    rw [List.cons_append, assign_cons_of_ne (Ne.symm absent.1), ih absent.2, List.cons_append]

theorem find?_assign_of_ne (apart : other ≠ name) :
    (env.assign name value).find? other = env.find? other := by
  induction env with
  | nil => rfl
  | cons first rest ih =>
    obtain ⟨found, old⟩ := first
    by_cases same : found = name
    · subst same
      rw [assign_cons_self, find?_cons_of_ne (Ne.symm apart), find?_cons_of_ne (Ne.symm apart)]
    · rw [assign_cons_of_ne same]
      by_cases here : found = other
      · subst here; simp
      · rw [find?_cons_of_ne here, find?_cons_of_ne here, ih]

theorem find?_assign_self (found : env.find? name = some old) :
    (env.assign name value).find? name = some value := by
  induction env with
  | nil => cases found
  | cons first rest ih =>
    obtain ⟨other, before⟩ := first
    by_cases same : other = name
    · subst same; simp
    · rw [find?_cons_of_ne same] at found
      rw [assign_cons_of_ne same, find?_cons_of_ne same, ih found]

theorem assign_assign (later : Operand) :
    (env.assign name value).assign name later = env.assign name later := by
  induction env with
  | nil => rfl
  | cons first rest ih =>
    obtain ⟨other, old⟩ := first
    by_cases same : other = name
    · subst same; simp
    · rw [assign_cons_of_ne same, assign_cons_of_ne same, assign_cons_of_ne same, ih]

theorem assign_of_find? (found : env.find? name = some value) : env.assign name value = env := by
  induction env with
  | nil => rfl
  | cons first rest ih =>
    obtain ⟨other, old⟩ := first
    by_cases same : other = name
    · subst same
      obtain rfl := Option.some.inj (find?_cons_self.symm.trans found)
      simp
    · rw [find?_cons_of_ne same] at found
      rw [assign_cons_of_ne same, ih found]

@[simp] theorem length_assign : (env.assign name value).length = env.length := by
  induction env with
  | nil => rfl
  | cons first rest ih =>
    obtain ⟨other, old⟩ := first
    rw [assign]
    split <;> simp [ih]

end Env

namespace Run

variable {σ α : Type} {env : Env} {name : String} {value : Operand}

theorem run_read (found : env.find? name = some value) :
    (read name : Run σ Operand).run env = pure (value, env) := by
  simp [read, found, orStuck]

@[simp] theorem run_orStuck_some (a : α) (env : Env) :
    (orStuck (some a) : Run σ α).run env = pure (a, env) := rfl

@[simp] theorem run_declare (env : Env) :
    (declare name value : Run σ Unit).run env = pure ((), (name, value) :: env) := rfl

@[simp] theorem run_assign (env : Env) :
    (assign name value : Run σ Unit).run env = pure ((), env.assign name value) := rfl

@[simp] theorem run_effect (action : StateM σ α) (env : Env) :
    (effect action).run env = (do
      let a ← (ExceptT.lift action : ExceptT Stop (StateM σ) α)
      pure (a, env)) := rfl

theorem run_mapM_read {names : List Ident} {values : List Operand}
    (found : List.Forall₂ (fun x value => env.find? x.name = some value) names values) :
    (names.mapM fun x => read x.name : Run σ (List Operand)).run env = pure (values, env) := by
  induction found with
  | nil => rfl
  | cons first _ ih => simp [List.mapM_cons, run_read first, ih]

theorem lift_map {β : Type} (f : α → β) (action : StateM σ α) :
    (ExceptT.lift (f <$> action) : ExceptT Stop (StateM σ) β) = f <$> ExceptT.lift action := by
  rw [map_eq_pure_bind, map_eq_pure_bind, ExceptT.lift_bind]
  simp

theorem run_inScope (block : Run σ Unit) (env : Env) :
    (inScope block).run env = (do
      let result ← block.run env
      pure ((), result.2.drop (result.2.length - env.length))) := rfl

/-- The variables that a block declares are in front of those around it, and are dropped at its
end. -/
theorem run_inScope_of {β : Type} {block : Run σ Unit} (action : StateM σ β)
    (locals : β → Env) {after : β → Env}
    (runs : block.run env = (do
      let b ← ExceptT.lift action
      pure ((), locals b ++ after b)))
    (keeps : ∀ b, (after b).length = env.length) :
    (inScope block).run env = (do
      let b ← ExceptT.lift action
      pure ((), after b)) := by
  simp [run_inScope, runs, keeps]

theorem run_inScope_of_pure {block : Run σ Unit} (locals : Env) {after : Env}
    (runs : block.run env = pure ((), locals ++ after)) (keeps : after.length = env.length) :
    (inScope block).run env = pure ((), after) := by
  simp [run_inScope, runs, keeps]

section Worlds

variable {β : Type} {first : ExceptT Stop (StateM σ) α} {next : α → ExceptT Stop (StateM σ) β}
  {world after : σ}

theorem run_bind_of_ok {a : α} (done : first.run.run world = (.ok a, after)) :
    (first >>= next).run.run world = (next a).run.run after := by
  rw [ExceptT.run_bind, StateT.run_bind, done]
  rfl

theorem run_bind_of_error {stop : Stop} (stopped : first.run.run world = (.error stop, after)) :
    (first >>= next).run.run world = (.error stop, after) := by
  rw [ExceptT.run_bind, StateT.run_bind, stopped]
  rfl

end Worlds
end Run

variable {σ : Type} {machine : Machine σ}

theorem Code.operand_self : Code.operand σ [.plain "self"] = Run.read "self" := rfl

theorem Code.operand_true : Code.operand σ [.plain "true"] = pure (.flag true) := rfl

theorem Code.operand_false : Code.operand σ [.plain "false"] = pure (.flag false) := rfl

theorem Code.operand_absent : Code.operand σ Code.absent = pure .absent := rfl

theorem Code.operand_deref (x : Ident) :
    Code.operand σ [.punct '*', .word x] = Run.read x.name := rfl

theorem Body.exec_append (first second : Body) :
    Body.exec machine (first ++ second) = (do
      Body.exec machine first
      Body.exec machine second) := by
  induction first with
  | nil => simp [Body.exec]
  | cons stmt rest ih => simp [Body.exec, ih]

namespace Method

variable {method : Method} {body : Body} {self : Option Operand} {args : List Operand} {α : Type}

def scope (method : Method) (self : Option Operand) (args : List Operand) : Env :=
  (self.map fun value => ("self", value)).toList ++
    (method.params.map fun param => param.1.name).zip args

/-- The result of a method in a world, from how its body ends there. -/
theorem run_of_ends {world after : σ} {outcome : Except Stop (Unit × Env)}
    (isBody : method.body = some body) (lengths : args.length = method.params.length)
    (ends : ((Body.exec machine body).run (method.scope self args)).run.run world =
      (outcome, after)) :
    (method.run machine self args).run world = (Stop.result? outcome, after) := by
  unfold scope at ends
  simp [run, isBody, lengths, ends]
  rfl

/-- A method whose body returns after an effect on the world. -/
theorem run_of_returned (action : StateM σ α) (result : α → Operand)
    (isBody : method.body = some body) (lengths : args.length = method.params.length)
    (returned : (Body.exec machine body).run (method.scope self args) = (do
      let a ← (ExceptT.lift action : ExceptT Stop (StateM σ) α)
      throw (.returned (result a)))) :
    method.run machine self args = (do
      let a ← action
      return some (result a)) := by
  unfold scope at returned
  simp [run, isBody, lengths, returned, ExceptT.run_bind, ExceptT.run_lift, Stop.result?]

theorem run_of_pure_returned {result : Operand} (isBody : method.body = some body)
    (lengths : args.length = method.params.length)
    (returned : (Body.exec machine body).run (method.scope self args) =
      throw (.returned result)) :
    method.run machine self args = pure (some result) := by
  have effect : (Body.exec machine body).run (method.scope self args) = (do
      let _ ← (ExceptT.lift (pure ()) : ExceptT Stop (StateM σ) Unit)
      throw (.returned result)) := returned
  simpa using run_of_returned (pure ()) (fun _ => result) isBody lengths effect

end Method
end EntityGen
