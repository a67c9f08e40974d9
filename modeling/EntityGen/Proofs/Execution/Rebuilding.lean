import EntityGen.Generated.Get
import EntityGen.Proofs.Execution.Calls
import EntityGen.Proofs.Execution.Locals
import EntityGen.Proofs.Reading.Rebuild

/-! How generated statements rebuild a container. -/
namespace EntityGen

namespace Env

variable {env locals : Env} {name : String}

def raise (env : Env) (changed : Bool) : Env :=
  if changed then env.assign "dirty" (.flag true) else env

@[simp] theorem raise_false (env : Env) : env.raise false = env := rfl

@[simp] theorem raise_raise (env : Env) (a b : Bool) :
    (env.raise a).raise b = env.raise (a || b) := by
  cases a <;> cases b <;> simp [raise, assign_assign]

@[simp] theorem length_raise (env : Env) (changed : Bool) :
    (env.raise changed).length = env.length := by
  cases changed <;> simp [raise]

theorem raise_append (apart : "dirty" ∉ locals.names) (changed : Bool) :
    (locals ++ env).raise changed = locals ++ env.raise changed := by
  cases changed
  · rfl
  · exact assign_append_of_notMem apart

theorem raise_cons (apart : name ≠ "dirty") (value : Operand) (changed : Bool) :
    raise ((name, value) :: env) changed = (name, value) :: env.raise changed := by
  cases changed
  · rfl
  · exact assign_cons_of_ne apart value

theorem find?_raise (apart : name ≠ "dirty") (changed : Bool) :
    (env.raise changed).find? name = env.find? name := by
  cases changed
  · rfl
  · exact find?_assign_of_ne apart

end Env

/-- What the methods answer by which a repository reads, by their names and an id. -/
abbrev Answers := Ident → Value → Option (EntityType × Cell)

namespace Answers

variable {σ : Type}

def operand (answers : Answers) (name : Ident) (id : Value) : Operand :=
  match answers name id with
  | some (type, cell) => .present (.shared type cell)
  | none => .absent

def methods (answers : Answers) (name : Ident) : List Operand → StateM σ Operand
  | [.owned _ id] => return answers.operand name id
  | _ => return .nothing

def value (answers : Answers) (name : Ident) (id : Value) : Option Value :=
  (answers name id).map fun found => found.2.value

/-- What is stored, as the methods that read from the stores answer it. -/
def reading (answers : Answers) (schema : Schema) (iteration : Nat → Iteration) : Reading where
  schema
  iteration
  stored slot := (answers (Naming.readMethod slot.type.name) slot.id).map Prod.snd

end Answers

def Reading.state (reading : Reading) (datum : Datum) : Value × Bool :=
  reading.rebuild datum.iteration datum.type datum.value

namespace Generated.Get

variable {σ α : Type} {host : Host σ} {answers : Answers} {env : Env} {source : Expr}

theorem run_reconciled (cached : Datum) (latest : Option Value) (env : Env) :
    (Host.reconciled cached latest "dirty" : Run σ Operand).run env =
      pure (.owned cached.type (reconcile cached.value latest).1,
        env.raise (reconcile cached.value latest).2) := by
  unfold Host.reconciled
  obtain ⟨value, changed⟩ := reconcile cached.value latest
  cases changed <;> rfl

/-- An entity is looked up by its id and compared with what is cached. -/
theorem eval_reconciled (methods : host.methods = answers.methods)
    (distinct : ∀ entity ∈ host.types, entity.Distinct)
    (typed : Typed host.schema (.entity target) value)
    (self : env.find? "self" = some .repository)
    (gives : (source.eval host.machine).run env =
      pure (.datum ⟨.entity target, value, iteration⟩, env)) (name : Ident) :
    let state := reconcile value (answers.value name (host.schema.idOf ⟨target, value⟩))
    ((reconciled host.runtime source (Expr.self.call name [idOf host.runtime source])).eval
      host.machine).run env = pure (.owned (.entity target) state.1, env.raise state.2) := by
  intro state
  obtain ⟨entity, member, known⟩ := Host.entity?_of_known typed.known
  obtain ⟨fields, rfl, lengths⟩ := Host.fields_of_typed known typed
  have id := Host.invoke_id known (distinct entity member) lengths iteration
  cases found : answers name (host.schema.idOf ⟨target, .seq fields⟩) <;>
    simp [reconciled, idOf, Expr.eval, Expr.evalAll, Expr.borrow, Expr.self, Code.operand_self,
      Run.run_read self, gives, id, Host.change?, Host.call, methods, Answers.methods,
      Answers.operand, Answers.value, found, dirtyVar, Naming.plain, run_reconciled, state]

/-- Each run of a loop body adds one result to those so far, and may raise the flag. -/
theorem forM_collect {β : Type} {items : List α} {block : α → Run σ Unit}
    (state : List β → Bool → Env) (Gives : α → β → Prop) (raises : α → Bool)
    (step : ∀ item ∈ items, ∀ results changed, ∃ result, Gives item result ∧
      (block item).run (state results changed) =
        pure ((), state (results ++ [result]) (changed || raises item)))
    (results : List β) (changed : Bool) :
    ∃ more, List.Forall₂ Gives items more ∧
      (items.forM block).run (state results changed) =
        pure ((), state (results ++ more) (changed || items.any raises)) := by
  induction items generalizing results changed with
  | nil => exact ⟨[], .nil, by simp⟩
  | cons first rest ih =>
    obtain ⟨result, given, once⟩ := step first List.mem_cons_self results changed
    obtain ⟨more, all, run⟩ := ih (fun item member => step item (List.mem_cons_of_mem _ member))
      (results ++ [result]) (changed || raises first)
    refine ⟨result :: more, .cons given all, ?_⟩
    simp only [List.forM_eq_forM] at run ⊢
    simp [once, run, Bool.or_assoc]

theorem valueAs?_owned (given type : ResolvedType) (value : Value) :
    (Operand.owned given value).valueAs? type = some value := by
  simp [Operand.valueAs?]

theorem valuesAs?_eq {type : ResolvedType} {f : α → Value} {items : List α}
    {operands : List Operand}
    (given : List.Forall₂ (fun item operand => operand.valueAs? type = some (f item))
      items operands) :
    Operand.valueAs?.valuesAs? operands type = some (items.map f) := by
  induction given with
  | nil => rfl
  | cons first _ ih => simp [Operand.valueAs?.valuesAs?, first, ih]

/-- Rebuilding a container of a type into a new variable, from a source that does not depend on
that variable. -/
def Rebuilds (host : Host σ) (reading : Reading) (type : ResolvedType) : Prop :=
  ∀ (datum : Datum) (source : Expr) (copy : Ident) (counters : Counters) (env : Env),
    datum.type = type → Typed host.schema type datum.value →
    Naming.IsCopy copy counters.copies → env.find? "self" = some .repository →
    (∀ fresh, (source.eval host.machine).run ((copy.name, fresh) :: env) =
      pure (.datum datum, (copy.name, fresh) :: env)) →
    ∃ operand, operand.valueAs? type = some (reading.state datum).1 ∧
      (Body.exec host.machine (rebuild host.runtime type source copy counters).1).run env =
        pure ((), (copy.name, operand) :: env.raise (reading.state datum).2)

/-- Variables that are copies with numbers from `used` on and before `next`. -/
def Numbered (used next : Nat) (locals : Env) : Prop :=
  ∀ name ∈ locals.names, ∃ n, used ≤ n ∧ n < next ∧ name = (Naming.nestedCopy n).name

/-- Statements and an expression that renew the datum of a loop variable. The expression is
evaluated later, when there may be more variables and the flag may have been raised. -/
def Renews (host : Host σ) (reading : Reading) (x : Ident) (datum : Datum) (used next : Nat)
    (body : Body) (expr : Expr) : Prop :=
  ∀ env : Env, env.find? "self" = some .repository → env.find? x.name = some (.datum datum) →
    ∃ (locals : Env) (before after : Bool) (operand : Operand),
      operand.valueAs? datum.type = some (reading.state datum).1 ∧
      (before || after) = (reading.state datum).2 ∧
      Numbered used next locals ∧
      (Body.exec host.machine body).run env = pure ((), locals ++ env.raise before) ∧
      ∀ later : Env, later.find? "self" = some .repository →
        later.find? x.name = some (.datum datum) →
        (∀ name ∈ locals.names, later.find? name = locals.find? name) →
        (expr.eval host.machine).run later = pure (operand, later.raise after)

/-- The statements and expressions that renew the data of several loop variables. -/
def RenewsAll (host : Host σ) (reading : Reading) (parts : List (Ident × Datum)) (used next : Nat)
    (body : Body) (exprs : List Expr) : Prop :=
  ∀ env : Env, env.find? "self" = some .repository →
    (∀ part ∈ parts, env.find? part.1.name = some (.datum part.2)) →
    ∃ (locals : Env) (before after : Bool) (operands : List Operand),
      List.Forall₂ (fun part operand =>
        operand.valueAs? part.2.type = some (reading.state part.2).1) parts operands ∧
      (before || after) = parts.any (fun part => (reading.state part.2).2) ∧
      Numbered used next locals ∧
      (Body.exec host.machine body).run env = pure ((), locals ++ env.raise before) ∧
      ∀ later : Env, later.find? "self" = some .repository →
        (∀ part ∈ parts, later.find? part.1.name = some (.datum part.2)) →
        (∀ name ∈ locals.names, later.find? name = locals.find? name) →
        (Expr.evalAll host.machine exprs).run later = pure (operands, later.raise after)

section Numbered

variable {locals more : Env} {used next : Nat} {name : String}

theorem numbered_nil (used next : Nat) : Numbered used next [] := fun _ member => nomatch member

theorem Numbered.append {mid : Nat} (first : Numbered used mid locals)
    (second : Numbered mid next more) (up : used ≤ mid) (on : mid ≤ next) :
    Numbered used next (more ++ locals) := by
  intro name member
  rw [Env.names_append, List.mem_append] at member
  rcases member with member | member
  · obtain ⟨n, from_, below, same⟩ := second name member
    exact ⟨n, Nat.le_trans up from_, below, same⟩
  · obtain ⟨n, from_, below, same⟩ := first name member
    exact ⟨n, from_, Nat.lt_of_lt_of_le below on, same⟩

theorem Numbered.notMem (numbered : Numbered used next locals)
    (other : Naming.family name ≠ "copy".toList) : name ∉ locals.names := by
  intro member
  obtain ⟨n, -, -, rfl⟩ := numbered name member
  exact other (Naming.family_nestedCopy n)

theorem Numbered.notMem_copy {copy : Ident} (numbered : Numbered used next locals)
    (isCopy : Naming.IsCopy copy used) : copy.name ∉ locals.names := by
  intro member
  obtain ⟨n, from_, -, same⟩ := numbered _ member
  exact isCopy.ne_nestedCopy from_ same

theorem Numbered.notMem_of_mem {mid : Nat} (first : Numbered used mid locals)
    (second : Numbered mid next more) (member : name ∈ locals.names) : name ∉ more.names := by
  intro again
  obtain ⟨m, -, below, rfl⟩ := first name member
  obtain ⟨n, from_, -, same⟩ := second _ again
  have := Naming.nestedCopy_inj.mp same
  omega

end Numbered

theorem element_of_container {type : ResolvedType} (container : ∀ target, type ≠ .entity target)
    (runtime : Path) (inner : Expr → Ident → Counters → Body × Counters) (source : Expr)
    (counters : Counters) : element runtime inner type source counters =
      if type.holdsEntities then
        let copy := Naming.nestedCopy counters.copies
        let rebuilt := inner source copy { counters with copies := counters.copies + 1 }
        (rebuilt.1, .name copy, rebuilt.2)
      else ([], source.cloned, counters) := by
  cases type with
  | entity target => exact (container target rfl).elim
  | _ => rfl

theorem copies_le_element {inner : Expr → Ident → Counters → Body × Counters}
    (grows : ∀ source copy counters, counters.copies ≤ (inner source copy counters).2.copies)
    (runtime : Path) (type : ResolvedType) (source : Expr) (counters : Counters) :
    counters.copies ≤ (element runtime inner type source counters).2.2.copies := by
  by_cases direct : ∃ target, type = .entity target
  · obtain ⟨target, rfl⟩ := direct
    exact Nat.le_refl _
  · rw [element_of_container fun target same => direct ⟨target, same⟩]
    split
    · exact Nat.le_trans (Nat.le_succ _) (grows _ _ { counters with copies := counters.copies + 1 })
    · exact Nat.le_refl _

/-- Numbers of copies are not used again. -/
theorem copies_le_rebuild (runtime : Path) : (type : ResolvedType) → (source : Expr) →
    (copy : Ident) → (counters : Counters) →
      counters.copies ≤ (rebuild runtime type source copy counters).2.copies
  | .list _ elem, _, _, counters =>
    copies_le_element (copies_le_rebuild runtime elem) runtime elem _
      { counters with loops := counters.loops + 1 }
  | .map _ key value, _, _, counters =>
    Nat.le_trans
      (copies_le_element (copies_le_rebuild runtime key) runtime key _
        { counters with loops := counters.loops + 1 })
      (copies_le_element (copies_le_rebuild runtime value) runtime value _ _)
  | .leaf _, _, _, _ | .entity _, _, _, _ | .other _ _, _, _, _ => Nat.le_refl _

theorem state_of_plain {reading : Reading} {datum : Datum}
    (plain : datum.type.holdsEntities = false) : reading.state datum = (datum.value, false) := by
  refine Prod.ext ?_ ?_
  · exact (reading.rebuild_fst ..).trans (Reading.renew_of_plain plain ..)
  · refine (reading.rebuild_clean_iff ..).mpr fun held holds => ?_
    rw [holds.holdsEntities] at plain
    cases plain

section Host

variable {reading : Reading} {x : Ident} {datum : Datum}

theorem renews_entity (methods : host.methods = answers.methods)
    (distinct : ∀ entity ∈ host.types, entity.Distinct)
    (typed : Typed host.schema (.entity target) value) (iteration : Iteration) (used next : Nat) :
    Renews host (answers.reading host.schema host.iteration) x ⟨.entity target, value, iteration⟩
      used next [] (reconciled host.runtime (.name x)
        (Expr.self.call (Naming.readMethod target.name) [idOf host.runtime (.name x)])) := by
  have same :
      (answers.reading host.schema host.iteration).state ⟨.entity target, value, iteration⟩ =
        reconcile value (answers.value (Naming.readMethod target.name)
          (host.schema.idOf ⟨target, value⟩)) := by
    simp [Reading.state, Reading.rebuild, Answers.reading, Answers.value, Schema.slot,
      Function.comp_def]
  intro env self held
  rw [same]
  refine ⟨[], false, _, .owned (.entity target) _, valueAs?_owned .., Bool.false_or _,
    numbered_nil _ _, rfl, fun later self held _ => ?_⟩
  have gives : ((Expr.name x).eval host.machine).run later =
      pure (.datum ⟨.entity target, value, iteration⟩, later) := by
    rw [Expr.eval, Run.run_read held]
  exact eval_reconciled methods distinct typed self gives (Naming.readMethod target.name)

theorem renews_plain (plain : datum.type.holdsEntities = false) (used next : Nat) :
    Renews host reading x datum used next [] (Expr.name x).cloned := by
  intro env self held
  refine ⟨[], false, false, .owned datum.type datum.value, ?_, ?_, numbered_nil _ _, rfl, ?_⟩
  · rw [state_of_plain plain]; exact valueAs?_owned ..
  · rw [state_of_plain plain]; rfl
  · intro later self held _
    simp [Expr.cloned, Expr.eval, Expr.evalAll, Run.run_read held]

theorem renews_container (rebuilds : Rebuilds host reading datum.type)
    (typed : Typed host.schema datum.type datum.value) (isVar : Naming.IsLoopVar x)
    (counters : Counters) :
    let copy := Naming.nestedCopy counters.copies
    let rebuilt := rebuild host.runtime datum.type (.name x) copy
      { counters with copies := counters.copies + 1 }
    Renews host reading x datum counters.copies rebuilt.2.copies rebuilt.1 (.name copy) := by
  intro copy rebuilt env self held
  have isCopy : Naming.IsCopy copy (counters.copies + 1) := Naming.isCopy_nestedCopy _
  have apart := isCopy.ne_loopVar isVar
  have gives (fresh : Operand) : ((Expr.name x).eval host.machine).run ((copy.name, fresh) :: env) =
      pure (.datum datum, (copy.name, fresh) :: env) := by
    rw [Expr.eval, Run.run_read ((Env.find?_cons_of_ne apart).trans held)]
  obtain ⟨operand, given, run⟩ := rebuilds datum (.name x) copy
    { counters with copies := counters.copies + 1 } env rfl typed isCopy self gives
  refine ⟨[(copy.name, operand)], (reading.state datum).2, false, operand, given, Bool.or_false _,
    ?_, run, ?_⟩
  · intro name member
    obtain rfl := List.mem_singleton.mp member
    exact ⟨counters.copies, Nat.le_refl _,
      copies_le_rebuild host.runtime datum.type (.name x) copy
        { counters with copies := counters.copies + 1 }, rfl⟩
  · intro later _ _ kept
    have found : later.find? copy.name = some operand :=
      (kept copy.name (by simp)).trans Env.find?_cons_self
    rw [Expr.eval, Run.run_read found]
    rfl

/-- The statements and the expression that are generated for an element renew it. -/
theorem renews_element (methods : host.methods = answers.methods)
    (distinct : ∀ entity ∈ host.types, entity.Distinct) (datum : Datum)
    (rebuilds : datum.type.holdsEntities = true → (∀ target, datum.type ≠ .entity target) →
      Rebuilds host (answers.reading host.schema host.iteration) datum.type)
    (typed : Typed host.schema datum.type datum.value) (isVar : Naming.IsLoopVar x)
    (counters : Counters) :
    let renewed := element host.runtime (rebuild host.runtime datum.type) datum.type (.name x)
      counters
    Renews host (answers.reading host.schema host.iteration) x datum counters.copies
      renewed.2.2.copies renewed.1 renewed.2.1 := by
  by_cases direct : ∃ target, datum.type = .entity target
  · obtain ⟨type, value, iteration⟩ := datum
    obtain ⟨target, rfl⟩ := direct
    exact renews_entity methods distinct typed iteration _ _
  · have container : ∀ target, datum.type ≠ .entity target := fun target same =>
      direct ⟨target, same⟩
    rw [element_of_container container]
    split
    next holds => exact renews_container (rebuilds holds container) typed isVar counters
    next plain => exact renews_plain (Bool.eq_false_iff.mpr plain) _ _

theorem renewsAll_nil (used next : Nat) : RenewsAll host reading [] used next [] [] :=
  fun _ _ _ => ⟨[], false, false, [], .nil, rfl, numbered_nil _ _, rfl, fun _ _ _ _ => rfl⟩

/-- The copies of the first part do not hide those of the others, since numbers go up. -/
theorem renewsAll_cons {parts : List (Ident × Datum)} {used mid next : Nat} {first rest : Body}
    {expr : Expr} {exprs : List Expr} (vars : ∀ part ∈ (x, datum) :: parts, Naming.IsLoopVar part.1)
    (one : Renews host reading x datum used mid first expr)
    (others : RenewsAll host reading parts mid next rest exprs) (up : used ≤ mid)
    (on : mid ≤ next) :
    RenewsAll host reading ((x, datum) :: parts) used next (first ++ rest) (expr :: exprs) := by
  intro env self held
  obtain ⟨locals, before, after, operand, given, changed, numbered, runs, evaluates⟩ :=
    one env self (held _ List.mem_cons_self)
  have kept (name : String) (other : Naming.family name ≠ "copy".toList) (apart : name ≠ "dirty") :
      (locals ++ env.raise before).find? name = env.find? name := by
    rw [Env.find?_append_of_notMem (numbered.notMem other), Env.find?_raise apart]
  have heldLater : ∀ part ∈ parts, (locals ++ env.raise before).find? part.1.name =
      some (.datum part.2) := by
    intro part member
    have isVar := vars part (List.mem_cons_of_mem _ member)
    rw [kept _ isVar.family_ne_copy (isVar.ne (by decide)),
      held part (List.mem_cons_of_mem _ member)]
  obtain ⟨more, raised, later, operands, all, changes, numbers, run, evaluatesAll⟩ :=
    others (locals ++ env.raise before) ((kept "self" (by decide) (by decide)).trans self) heldLater
  have notDirty : "dirty" ∉ locals.names := numbered.notMem (by decide)
  refine ⟨more ++ locals, before || raised, after || later, operand :: operands, .cons given all,
    ?_, numbered.append numbers up on, ?_, ?_⟩
  · rw [List.any_cons, ← changed, ← changes]
    cases before <;> cases after <;> cases raised <;> rfl
  · rw [Body.exec_append, StateT.run_bind, runs, pure_bind, run, Env.raise_append notDirty,
      Env.raise_raise, List.append_assoc]
  · intro last self held found
    have own : ∀ name ∈ locals.names, last.find? name = locals.find? name := by
      intro name member
      rw [found name (by simp [member]),
        Env.find?_append_of_notMem (numbered.notMem_of_mem numbers member)]
    have first := evaluates last self (held _ List.mem_cons_self) own
    have rest := evaluatesAll (last.raise after)
      ((Env.find?_raise (by decide) after).trans self)
      (fun part member => by
        have isVar := vars part (List.mem_cons_of_mem _ member)
        rw [Env.find?_raise (isVar.ne (by decide)), held part (List.mem_cons_of_mem _ member)])
      (fun name member => by
        have apart : name ≠ "dirty" := fun same => numbers.notMem (by decide) (same ▸ member)
        rw [Env.find?_raise apart, found name (by simp [member]), Env.find?_append_of_mem member])
    simp [Expr.evalAll, first, rest]

theorem exec_grow {container : Container} {copy : Ident} {exprs : List Expr} {later last : Env}
    {old new : Operand} {operands : List Operand} (found : later.find? copy.name = some old)
    (evaluates : (Expr.evalAll host.machine exprs).run later = pure (operands, last))
    (changes : host.change? old (Naming.plain container.insertMethod) operands = some new) :
    (Body.exec host.machine [grow copy container exprs]).run later =
      pure ((), last.assign copy.name new) := by
  simp [grow, Body.exec, Stmt.exec, Expr.eval, Run.run_read found, evaluates, changes]

/-- One turn of the loop that rebuilds a container: the parts of an element are renewed, and what
they are then is added to the copy. -/
theorem run_turn {parts : List (Ident × Datum)} {used next : Nat} {body : Body} {exprs : List Expr}
    {container : Container} {copy : Ident} {old : Operand} (binding : Binding) (item : Operand)
    (new : List Operand → Operand) (renews : RenewsAll host reading parts used next body exprs)
    (isCopy : Naming.IsCopy copy used) (self : env.find? "self" = some .repository) (bound : Env)
    (vars : ∀ x : Ident, x.name ∈ bound.names → Naming.IsLoopVar x)
    (binds : ∀ env, (binding.bind σ item).run env = pure ((), bound ++ env))
    (held : ∀ part ∈ parts, Naming.IsLoopVar part.1 ∧
      ∀ env : Env, (bound ++ env).find? part.1.name = some (.datum part.2))
    (changes : ∀ operands, operands.length = parts.length →
      host.change? old (Naming.plain container.insertMethod) operands = some (new operands))
    (changed : Bool) :
    ∃ operands, List.Forall₂ (fun part operand =>
        operand.valueAs? part.2.type = some (reading.state part.2).1) parts operands ∧
      (Run.inScope do
        binding.bind σ item
        Body.exec host.machine (body ++ [grow copy container exprs])).run
          ((copy.name, old) :: env.raise changed) =
        pure ((), (copy.name, new operands) ::
          env.raise (changed || parts.any fun part => (reading.state part.2).2)) := by
  have noSelf : copy.name ≠ "self" := isCopy.ne (by decide) (by decide)
  have noDirty : copy.name ≠ "dirty" := isCopy.ne (by decide) (by decide)
  have unbound (name : String)
      (other : Naming.family name ∉ ["item", "key", "value"].map String.toList) :
      name ∉ bound.names := fun member => (vars (Naming.plain name) member).ne other rfl
  have copyUnbound : copy.name ∉ bound.names := fun member =>
    isCopy.ne_loopVar (vars copy member) rfl
  let start : Env := bound ++ (copy.name, old) :: env.raise changed
  have startSelf : start.find? "self" = some .repository := by
    rw [Env.find?_append_of_notMem (unbound _ (by decide)), Env.find?_cons_of_ne noSelf,
      Env.find?_raise (by decide), self]
  obtain ⟨locals, before, after, operands, given, raised, numbered, runs, evaluates⟩ :=
    renews start startSelf fun part member => (held part member).2 _
  refine ⟨operands, given, ?_⟩
  have notDirty : "dirty" ∉ locals.names := numbered.notMem (by decide)
  have copyHidden : copy.name ∉ (locals ++ bound).names := by
    rw [Env.names_append, List.mem_append, not_or]
    exact ⟨numbered.notMem_copy isCopy, copyUnbound⟩
  -- All that is declared in the turn stands in front of the copy.
  have behind (more : Bool) : locals ++ start.raise more =
      (locals ++ bound) ++ (copy.name, old) :: env.raise (changed || more) := by
    rw [Env.raise_append (unbound _ (by decide)), Env.raise_cons noDirty, Env.raise_raise,
      List.append_assoc]
  have evaluated := evaluates (locals ++ start.raise before)
    (by rw [Env.find?_append_of_notMem (numbered.notMem (by decide)),
      Env.find?_raise (by decide), startSelf])
    (fun part member => by
      obtain ⟨isVar, found⟩ := held part member
      rw [Env.find?_append_of_notMem (numbered.notMem isVar.family_ne_copy),
        Env.find?_raise (isVar.ne (by decide)), found])
    (fun name member => Env.find?_append_of_mem member)
  rw [Env.raise_append notDirty, Env.raise_raise, raised] at evaluated
  have copyFound : (locals ++ start.raise before).find? copy.name = some old := by
    rw [behind, Env.find?_append_of_notMem copyHidden, Env.find?_cons_self]
  have grown := exec_grow copyFound evaluated (changes operands given.length_eq.symm)
  rw [behind (parts.any fun part => (reading.state part.2).2),
    Env.assign_append_of_notMem copyHidden, Env.assign_cons_self] at grown
  refine Run.run_inScope_of_pure (locals ++ bound) ?_ (by simp)
  rw [StateT.run_bind, binds, pure_bind, Body.exec_append, StateT.run_bind, runs, pure_bind, grown]

/-- A container is rebuilt in a loop over its elements, of which each turn adds one result. -/
theorem exec_loop {β : Type} {copy : Ident} {container : Container} {binding : Binding}
    {inner : Body} {items : List α} (operand : α → Operand) (made : List β → Operand)
    (Gives : α → β → Prop) (raises : α → Bool) (empty : made [] = .newContainer container)
    (gives : ∀ fresh, (source.eval host.machine).run ((copy.name, fresh) :: env) =
      pure (.datum datum, (copy.name, fresh) :: env))
    (iterates : datum.iterate? "iter" = some (items.map operand))
    (turn : ∀ item ∈ items, ∀ results changed, ∃ result, Gives item result ∧
      (Run.inScope do
        binding.bind σ (operand item)
        Body.exec host.machine inner).run ((copy.name, made results) :: env.raise changed) =
        pure ((), (copy.name, made (results ++ [result])) :: env.raise (changed || raises item))) :
    ∃ results, List.Forall₂ Gives items results ∧
      (Body.exec host.machine
        [freshCopy copy container, .each binding (source.get "iter") inner]).run env =
        pure ((), (copy.name, made results) :: env.raise (items.any raises)) := by
  obtain ⟨results, given, run⟩ := forM_collect
    (fun results changed => (copy.name, made results) :: env.raise changed) Gives raises turn []
    false
  refine ⟨results, given, ?_⟩
  simp only [List.forM_eq_forM, List.nil_append, Bool.false_or, Env.raise_false, empty] at run
  simp [freshCopy, Body.exec, Stmt.exec, Expr.get, Expr.eval, Expr.evalAll, gives, iterates,
    Host.change?, Host.call, run]

theorem state_list {kind : ListKind} {elem : ResolvedType} (holds : elem.holdsEntities = true)
    (items : List Value) (iteration : Iteration) :
    let datum : Datum := ⟨.list kind elem, .seq items, iteration⟩
    reading.state datum = (.seq (datum.elements.map fun item => (reading.state item).1),
      datum.elements.any fun item => (reading.state item).2) := by
  intro datum
  have states : (items.mapIdx fun i item => reading.rebuild (iteration.within i) elem item) =
      datum.elements.map reading.state := by
    simp only [datum, Datum.elements, map_mapIdx, Reading.state]
  simp only [datum, Reading.state, Reading.rebuild, if_pos holds]
  rw [states, List.map_map, List.any_map]
  rfl

theorem state_map {kind : MapKind} {keyType valueType : ResolvedType}
    (holds : (keyType.holdsEntities || valueType.holdsEntities) = true)
    (pairs : List (Value × Value)) (iteration : Iteration) :
    let datum : Datum := ⟨.map kind keyType valueType, .seq (pairs.map Value.entry), iteration⟩
    reading.state datum = (.seq (Reading.grow (datum.entries.map fun entry =>
        .pair (reading.state entry.1).1 (reading.state entry.2).1)),
      datum.entries.any fun entry => (reading.state entry.1).2 || (reading.state entry.2).2) := by
  intro datum
  let both (entry : Datum × Datum) : Value × Bool :=
    (.pair (reading.state entry.1).1 (reading.state entry.2).1,
      (reading.state entry.1).2 || (reading.state entry.2).2)
  have states : ((pairs.map Value.entry).mapIdx fun i entry => Reading.rebuildEntry
      (fun key => reading.rebuild (iteration.within (2 * i)) keyType key)
      (fun value => reading.rebuild (iteration.within (2 * i + 1)) valueType value) entry) =
      ((pairs.map Value.entry).mapIdx fun i entry =>
        ((⟨keyType, entry.key, iteration.within (2 * i)⟩ : Datum),
          (⟨valueType, entry.content, iteration.within (2 * i + 1)⟩ : Datum))).map both := by
    rw [map_mapIdx]
    refine List.ext_getElem (by simp) fun i bound _ => ?_
    simp [Reading.rebuildEntry, Value.entry, Value.key, Value.content, both, Reading.state]
  simp only [datum, Reading.state, Reading.rebuild, if_pos holds]
  rw [states, Iteration.arrange_map, List.map_map, List.any_map]
  rfl

section Containers

variable (methods : host.methods = answers.methods)
  (distinct : ∀ entity ∈ host.types, entity.Distinct)

/-- What is generated for a container of this type rebuilds it, if it is one with entities. -/
abbrev RebuildsIfHolding (host : Host σ) (answers : Answers) (type : ResolvedType) : Prop :=
  type.holdsEntities = true → (∀ target, type ≠ .entity target) →
    Rebuilds host (answers.reading host.schema host.iteration) type

include methods distinct in
theorem run_turn_list {kind : ListKind} {copy : Ident} (item : Datum)
    (rebuilds : RebuildsIfHolding host answers item.type)
    (typed : Typed host.schema item.type item.value) (counters : Counters)
    (isCopy : Naming.IsCopy copy counters.copies) (self : env.find? "self" = some .repository)
    (results : List Operand) (changed : Bool) :
    let reading := answers.reading host.schema host.iteration
    let itemVar := Naming.itemVar counters.loops
    let renewed := element host.runtime (rebuild host.runtime item.type) item.type (.name itemVar)
      { counters with loops := counters.loops + 1 }
    ∃ result, result.valueAs? item.type = some (reading.state item).1 ∧
      (Run.inScope do
        (Binding.name itemVar).bind σ (.datum item)
        Body.exec host.machine (renewed.1 ++ [grow copy (.list kind) [renewed.2.1]])).run
          ((copy.name, .newList kind results) :: env.raise changed) =
        pure ((), (copy.name, .newList kind (results ++ [result])) ::
          env.raise (changed || (reading.state item).2)) := by
  intro reading itemVar renewed
  have isVar : Naming.IsLoopVar itemVar := Naming.isLoopVar_itemVar _
  have one : Renews host reading itemVar item counters.copies renewed.2.2.copies renewed.1
      renewed.2.1 := renews_element methods distinct item rebuilds typed isVar
    { counters with loops := counters.loops + 1 }
  have up : counters.copies ≤ renewed.2.2.copies := copies_le_element
    (copies_le_rebuild host.runtime item.type) host.runtime item.type (.name itemVar)
    { counters with loops := counters.loops + 1 }
  have renews := renewsAll_cons (by simpa using isVar) one (renewsAll_nil renewed.2.2.copies _) up
    (Nat.le_refl _)
  rw [List.append_nil] at renews
  have changes : ∀ operands : List Operand, operands.length = 1 →
      host.change? (.newList kind results) (Naming.plain (Container.list kind).insertMethod)
        operands = some (.newList kind (results ++ operands)) := by
    intro operands one
    obtain ⟨operand, rfl⟩ := List.length_eq_one_iff.mp one
    simp [Host.change?, Naming.plain]
  obtain ⟨operands, given, run⟩ := run_turn (.name itemVar) (.datum item)
    (fun operands => .newList kind (results ++ operands)) renews isCopy self
    [(itemVar.name, .datum item)]
    (fun x member => by rw [Naming.IsLoopVar, List.mem_singleton.mp member]; exact isVar)
    (fun env => rfl) (by simpa using isVar) changes changed
  cases given with
  | cons first rest =>
    cases rest
    exact ⟨_, first, by simpa using run⟩

include methods distinct in
theorem run_turn_map {kind : MapKind} {copy : Ident} (key value : Datum)
    (rebuildsKey : RebuildsIfHolding host answers key.type)
    (rebuildsValue : RebuildsIfHolding host answers value.type)
    (typedKey : Typed host.schema key.type key.value)
    (typedValue : Typed host.schema value.type value.value) (counters : Counters)
    (isCopy : Naming.IsCopy copy counters.copies) (self : env.find? "self" = some .repository)
    (results : List (Operand × Operand)) (changed : Bool) :
    let reading := answers.reading host.schema host.iteration
    let keyVar := Naming.keyVar counters.loops
    let valueVar := Naming.valueVar counters.loops
    let newKey := element host.runtime (rebuild host.runtime key.type) key.type (.name keyVar)
      { counters with loops := counters.loops + 1 }
    let newValue := element host.runtime (rebuild host.runtime value.type) value.type
      (.name valueVar) newKey.2.2
    ∃ result : Operand × Operand,
      (result.1.valueAs? key.type = some (reading.state key).1 ∧
        result.2.valueAs? value.type = some (reading.state value).1) ∧
      (Run.inScope do
        (Binding.pair keyVar valueVar).bind σ (.entry key value)
        Body.exec host.machine (newKey.1 ++ newValue.1 ++
          [grow copy (.map kind) [newKey.2.1, newValue.2.1]])).run
          ((copy.name, .newMap kind (results.map Prod.fst) (results.map Prod.snd)) ::
            env.raise changed) =
        pure ((), (copy.name, .newMap kind ((results ++ [result]).map Prod.fst)
          ((results ++ [result]).map Prod.snd)) ::
            env.raise (changed || ((reading.state key).2 || (reading.state value).2))) := by
  intro reading keyVar valueVar newKey newValue
  have isKeyVar : Naming.IsLoopVar keyVar := Naming.isLoopVar_keyVar _
  have isValueVar : Naming.IsLoopVar valueVar := Naming.isLoopVar_valueVar _
  have apart : valueVar.name ≠ keyVar.name := Naming.valueVar_ne_keyVar _ _
  have renewsKey : Renews host reading keyVar key counters.copies newKey.2.2.copies newKey.1
      newKey.2.1 := renews_element methods distinct key rebuildsKey typedKey isKeyVar
    { counters with loops := counters.loops + 1 }
  have renewsValue : Renews host reading valueVar value newKey.2.2.copies newValue.2.2.copies
      newValue.1 newValue.2.1 :=
    renews_element methods distinct value rebuildsValue typedValue isValueVar newKey.2.2
  have up : counters.copies ≤ newKey.2.2.copies := copies_le_element
    (copies_le_rebuild host.runtime key.type) host.runtime key.type (.name keyVar)
    { counters with loops := counters.loops + 1 }
  have on : newKey.2.2.copies ≤ newValue.2.2.copies := copies_le_element
    (copies_le_rebuild host.runtime value.type) host.runtime value.type (.name valueVar) newKey.2.2
  have last := renewsAll_cons (by simpa using isValueVar) renewsValue
    (renewsAll_nil newValue.2.2.copies _) on (Nat.le_refl _)
  have renews := renewsAll_cons (by simpa using ⟨isKeyVar, isValueVar⟩) renewsKey last up on
  rw [List.append_nil] at renews
  -- A turn gives two operands, of which the first is the key.
  let new (operands : List Operand) : Operand := .newMap kind
    (results.map Prod.fst ++ operands.take 1) (results.map Prod.snd ++ operands.drop 1)
  have changes : ∀ operands : List Operand, operands.length = 2 →
      host.change? (.newMap kind (results.map Prod.fst) (results.map Prod.snd))
        (Naming.plain (Container.map kind).insertMethod) operands = some (new operands) := by
    intro operands two
    obtain ⟨first, second, rfl⟩ := List.length_eq_two.mp two
    simp [Host.change?, Naming.plain, new]
  have held (env : Env) :
      Env.find? ((valueVar.name, .datum value) :: (keyVar.name, .datum key) :: env) keyVar.name =
        some (.datum key) := (Env.find?_cons_of_ne apart).trans Env.find?_cons_self
  obtain ⟨operands, given, run⟩ := run_turn (.pair keyVar valueVar) (.entry key value) new
    renews isCopy self [(valueVar.name, .datum value), (keyVar.name, .datum key)]
    (fun x member => by
      rcases List.mem_pair.mp member with same | same <;> rw [Naming.IsLoopVar, same]
      · exact isValueVar
      · exact isKeyVar)
    (fun env => rfl) (by simpa using ⟨⟨isKeyVar, held⟩, isValueVar⟩) changes changed
  cases given with
  | cons first rest =>
    cases rest with
    | cons second rest =>
      cases rest
      exact ⟨(_, _), ⟨first, second⟩, by simpa [new] using run⟩

include methods distinct in
theorem rebuilds_list {kind : ListKind} {elem : ResolvedType}
    (rebuilds : RebuildsIfHolding host answers elem) (holds : elem.holdsEntities = true) :
    Rebuilds host (answers.reading host.schema host.iteration) (.list kind elem) := by
  intro datum source copy counters env ofType typed isCopy self gives
  obtain ⟨type, value, iteration⟩ := datum
  obtain rfl : type = .list kind elem := ofType
  cases typed with
  | @list items _ _ typed =>
    let reading := answers.reading host.schema host.iteration
    let datum : Datum := ⟨.list kind elem, .seq items, iteration⟩
    have loop : ∃ results, List.Forall₂ (fun item operand =>
          operand.valueAs? elem = some (reading.state item).1) datum.elements results ∧
        (Body.exec host.machine
          (rebuild host.runtime (.list kind elem) source copy counters).1).run env =
          pure ((), (copy.name, .newList kind results) ::
            env.raise (datum.elements.any fun item => (reading.state item).2)) := by
      refine exec_loop .datum (.newList kind) _ _ rfl gives rfl
        fun item member results changed => ?_
      obtain ⟨i, bound, rfl⟩ := List.mem_mapIdx.mp member
      exact run_turn_list methods distinct ⟨elem, items[i], iteration.within i⟩ rebuilds
        (typed _ (List.getElem_mem bound)) counters isCopy self results changed
    obtain ⟨results, all, run⟩ := loop
    rw [state_list holds]
    exact ⟨.newList kind results, by simp [Operand.valueAs?, valuesAs?_eq all, datum, reading], run⟩

include methods distinct in
theorem rebuilds_map {kind : MapKind} {keyType valueType : ResolvedType}
    (rebuildsKey : RebuildsIfHolding host answers keyType)
    (rebuildsValue : RebuildsIfHolding host answers valueType)
    (holds : (keyType.holdsEntities || valueType.holdsEntities) = true) :
    Rebuilds host (answers.reading host.schema host.iteration) (.map kind keyType valueType) := by
  intro datum source copy counters env ofType typed isCopy self gives
  obtain ⟨type, value, iteration⟩ := datum
  obtain rfl : type = .map kind keyType valueType := ofType
  cases typed with
  | @map pairs _ _ _ ascending typedKeys typedValues =>
    let reading := answers.reading host.schema host.iteration
    let datum : Datum := ⟨.map kind keyType valueType, .seq (pairs.map Value.entry), iteration⟩
    have loop : ∃ results : List (Operand × Operand), List.Forall₂ (fun entry result =>
          result.1.valueAs? keyType = some (reading.state entry.1).1 ∧
            result.2.valueAs? valueType = some (reading.state entry.2).1) datum.entries results ∧
        (Body.exec host.machine
          (rebuild host.runtime (.map kind keyType valueType) source copy counters).1).run env =
          pure ((), (copy.name, .newMap kind (results.map Prod.fst) (results.map Prod.snd)) ::
            env.raise (datum.entries.any fun entry =>
              (reading.state entry.1).2 || (reading.state entry.2).2)) := by
      refine exec_loop (fun entry => .entry entry.1 entry.2)
        (fun results => .newMap kind (results.map Prod.fst) (results.map Prod.snd)) _ _ rfl gives
        rfl fun entry member results changed => ?_
      obtain ⟨i, bound, rfl⟩ := List.mem_mapIdx.mp (Iteration.mem_of_mem_arrange _ _ _ _ member)
      obtain ⟨pair, among, same⟩ := List.mem_map.mp (List.getElem_mem bound)
      rw [← same]
      exact run_turn_map methods distinct ⟨keyType, pair.1, iteration.within (2 * i)⟩
        ⟨valueType, pair.2, iteration.within (2 * i + 1)⟩ rebuildsKey rebuildsValue
        (typedKeys pair among) (typedValues pair among) counters isCopy self results changed
    obtain ⟨results, all, run⟩ := loop
    rw [state_map holds]
    have newKeys := valuesAs?_eq <|
      List.forall₂_map_right_iff.mpr (all.imp fun _ _ given => given.1)
    have newValues := valuesAs?_eq <|
      List.forall₂_map_right_iff.mpr (all.imp fun _ _ given => given.2)
    refine ⟨.newMap kind (results.map Prod.fst) (results.map Prod.snd), ?_, run⟩
    simp [Operand.valueAs?, newKeys, newValues, List.zipWith_map, List.zipWith_self, datum, reading]

/-- What is generated for a container rebuilds it, however deep containers nest in it. -/
theorem rebuilds_of_container (methods : host.methods = answers.methods)
    (distinct : ∀ entity ∈ host.types, entity.Distinct) :
    (type : ResolvedType) → RebuildsIfHolding host answers type
  | .leaf _ | .other _ _ => fun holds => nomatch holds
  | .entity target => fun _ container => (container target rfl).elim
  | .list _ elem => fun holds _ =>
    rebuilds_list methods distinct (rebuilds_of_container methods distinct elem) holds
  | .map _ key value => fun holds _ =>
    rebuilds_map methods distinct (rebuilds_of_container methods distinct key)
      (rebuilds_of_container methods distinct value) holds

end Containers

end Host

end Generated.Get
end EntityGen
