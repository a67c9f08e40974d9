import EntityGen.Generated.Paths
import EntityGen.Proofs.Generated.Nodes

/-! Code that leads nowhere but along known paths. From the store module every other place of the
root is reached by the word `super`, so that it has to stand in those paths only. Code is closed if
what it is made of is, and if nothing leads on from the end of a path. -/
namespace EntityGen

/-- What the word `super` may stand in: names that are given, and paths. -/
structure Code.Known where
  names : Ident → Prop
  paths : Code → Prop

/-- The word `super` stands in what is known only. No path goes on where a known one ends. -/
inductive Code.Closed (known : Code.Known) : Code → Prop
  | nil : Closed known []
  | token {token rest} (other : token ≠ .plain "super") :
    Closed known rest → Closed known (token :: rest)
  | name {x rest} (given : known.names x) : Closed known rest → Closed known (.word x :: rest)
  | path {path next rest} (given : known.paths path) (ends : next ≠ .punct ':') :
    Closed known (next :: rest) → Closed known (path ++ next :: rest)

/-- Code that may end with a known path: it is closed if no path goes on behind it. -/
def Code.Whole (known : Code.Known) (code : Code) : Prop :=
  ∀ next rest, next ≠ .punct ':' → Closed known (next :: rest) → Closed known (code ++ next :: rest)

namespace Code

variable {known : Known} {code rest args : Code} {codes : List Code} {x : Ident} {text : String}
  {next : Token}

theorem Closed.append (first : Closed known code) (second : Closed known rest) :
    Closed known (code ++ rest) := by
  induction first with
  | nil => exact second
  | token other _ ih => exact .token other ih
  | name given _ ih => exact .name given ih
  | path given ends _ ih =>
    rw [List.append_assoc]
    exact .path given ends ih

theorem Closed.whole (closed : Closed known code) : Whole known code :=
  fun _ _ _ later => closed.append later

theorem whole_of_path (given : known.paths code) : Whole known code :=
  fun _ _ ends later => .path given ends later

theorem closed_of_name (given : known.names x) : Closed known [.word x] := .name given .nil

theorem Whole.closed_append (first : Whole known code) (ends : next ≠ .punct ':')
    (later : Closed known (next :: rest)) : Closed known (code ++ next :: rest) :=
  first next rest ends later

theorem Whole.append (first : Whole known code) (ends : next ≠ .punct ':')
    (later : Whole known (next :: rest)) : Whole known (code ++ next :: rest) := by
  intro last others behind closed
  rw [List.append_assoc]
  exact first next _ ends (later last others behind closed)

theorem Closed.append_whole (first : Closed known code) (second : Whole known rest) :
    Whole known (code ++ rest) := by
  intro last others behind closed
  rw [List.append_assoc]
  exact first.append (second last others behind closed)

theorem closed_punct (c : Char) (later : Closed known rest) :
    Closed known (.punct c :: rest) := .token nofun later

theorem closed_literal (later : Closed known rest) :
    Closed known (.literal text :: rest) := .token nofun later

theorem closed_lifetime (later : Closed known rest) :
    Closed known (.lifetime text :: rest) := .token nofun later

theorem closed_plain (name : String) (other : name ≠ "super") (later : Closed known rest) :
    Closed known (.plain name :: rest) := by
  refine .token (fun same => other ?_) later
  exact congrArg Ident.name (Token.word.inj same)

/-- A name in front of closed code. -/
theorem closed_word (first : Closed known [.word x]) (later : Closed known rest) :
    Closed known (.word x :: rest) := first.append later

theorem Whole.within {d : Delimiter} (inner : Whole known code) : Closed known (within d code) :=
  .token nofun (inner.closed_append nofun (.token nofun .nil))

theorem closed_within {d : Delimiter} (inner : Closed known code) :
    Closed known (within d code) := inner.whole.within

theorem closed_sign (signs : List Char) : Closed known (sign signs) := by
  induction signs with
  | nil => exact .nil
  | cons c signs ih => exact .token nofun ih

theorem closed_flatten (each : ∀ code ∈ codes, Closed known code) :
    Closed known codes.flatten := by
  induction codes with
  | nil => exact .nil
  | cons code codes ih =>
    obtain ⟨first, later⟩ := List.forall_mem_cons.mp each
    exact first.append (ih later)

theorem whole_commas : {codes : List Code} → (∀ code ∈ codes, Whole known code) →
    Whole known (commas codes)
  | [], _ => Closed.nil.whole
  | [code], each => by
    have only := each code List.mem_cons_self
    rwa [commas, List.intersperse_singleton, List.flatten_singleton]
  | code :: next :: rest, each => by
    obtain ⟨first, later⟩ := List.forall_mem_cons.mp each
    exact first.append (by simp) ((closed_punct ',' .nil).append_whole (whole_commas later))

theorem closed_commas : {codes : List Code} → (∀ code ∈ codes, Closed known code) →
    Closed known (commas codes)
  | [], _ => .nil
  | [code], each => by
    have only := each code List.mem_cons_self
    exact only.append .nil
  | code :: next :: rest, each => by
    obtain ⟨first, later⟩ := List.forall_mem_cons.mp each
    exact first.append (closed_punct _ (closed_commas later))

theorem closed_flatMap {α : Type} {f : α → Code} {items : List α}
    (each : ∀ item ∈ items, Closed known (f item)) : Closed known (items.flatMap f) :=
  closed_flatten (List.forall_mem_map.mpr each)

theorem closed_step (first : Closed known code) (last : Closed known [.word x]) :
    Closed known (code.step x) :=
  (first.append (closed_sign _)).append last

theorem Whole.applied (inner : Whole known args) (first : Closed known code) :
    Closed known (code.applied args) := by
  unfold Code.applied
  rw [List.append_assoc]
  exact first.append (closed_punct _ (inner.closed_append nofun (closed_punct _ .nil)))

theorem closed_applied (first : Closed known code) (inner : Closed known args) :
    Closed known (code.applied args) := inner.whole.applied first

theorem closed_rooted {names : List String} (others : "super" ∉ names) :
    Closed known (rooted names) := by
  induction names with
  | nil => exact .nil
  | cons name names ih =>
    obtain ⟨other, others⟩ := not_or.mp (mt List.mem_cons.mpr others)
    exact ((closed_sign _).append (closed_plain _ (Ne.symm other) .nil)).append (ih others)

@[simp] theorem closed_doc : Closed known (doc text) :=
  closed_punct _ (closed_within (closed_plain _ (by decide) (closed_punct _ (closed_literal .nil))))

@[simp] theorem closed_derive (each : ∀ code ∈ codes, Closed known code) :
    Closed known (derive codes) :=
  closed_punct _ (closed_within (closed_plain _ (by decide) (closed_within (closed_commas each))))

@[simp] theorem closed_allow (inner : Closed known code) : Closed known (allow code) :=
  closed_punct _ (closed_within (closed_plain _ (by decide) (closed_within inner)))

@[simp] theorem closed_present : Closed known present := closed_rooted (by decide)

@[simp] theorem closed_itself : Closed known itself := closed_plain _ (by decide) .nil

theorem Whole.shared (inner : Whole known code) : Closed known (shared code) :=
  inner.applied (closed_rooted (by decide))

end Code

variable {known : Code.Known}

def Node.Closed (known : Code.Known) : Node → Prop
  | .expr (.literal code) => Code.Closed known code
  | .expr (.name x) | .expr (.field _ x) | .expr (.call _ x _) => Code.Closed known [.word x]
  | .expr (.invoke function _) => Code.Whole known function
  | .expr (.construct type fields) =>
    Code.Closed known type ∧ ∀ x ∈ fields, Code.Closed known [.word x]
  | .expr (.choice _ arms) => ∀ arm ∈ arms, Code.Closed known arm.pattern
  | .stmt (.decl _ x type _) => Code.Closed known [.word x] ∧ ∀ code ∈ type, Code.Closed known code
  | .stmt (.each binding _ _) | .stmt (.branch (.binds binding _) _ _) =>
    Code.Closed known binding.code
  | .expr _ | .stmt _ => True

theorem Expr.closed_asOperand (expr : Expr) {code : Code} (closed : Code.Closed known code) :
    Code.Closed known (expr.asOperand code) := by
  unfold asOperand
  split
  · exact Code.closed_within closed
  · exact closed

theorem BinaryOp.closed_code (op : BinaryOp) : Code.Closed known op.code := by
  cases op <;> exact Code.closed_sign _

theorem Code.closed_mut (writable : Bool) :
    Closed known (if writable then [.plain "mut"] else []) := by
  cases writable
  · exact .nil
  · exact closed_plain _ (by decide) .nil

theorem Code.closed_typed : {type : Option Code} → (∀ code ∈ type, Closed known code) →
    Closed known (match type with | none => [] | some type => .punct ':' :: type)
  | none, _ => .nil
  | some _, each => closed_punct _ (each _ rfl)

mutual

theorem Expr.closed_code : (expr : Expr) → expr.All (Node.Closed known) →
    Code.Closed known expr.code
  | .literal code, all => by
    rw [Expr.all_literal] at all
    exact all
  | .name x, all => by
    rw [Expr.all_name] at all
    exact all
  | .field base x, all => by
    obtain ⟨name, base_all⟩ := Expr.all_field.mp all
    have inner := base.closed_asOperand (base.closed_code base_all)
    exact inner.append (Code.closed_punct _ name)
  | .call receiver method args, all => by
    obtain ⟨name, receiver_all, args_all⟩ := Expr.all_call.mp all
    have inner := receiver.closed_asOperand (receiver.closed_code receiver_all)
    have listed := Code.closed_commas (Expr.closed_codes args args_all)
    exact (inner.append (Code.closed_punct _ name)).append (Code.closed_within listed)
  | .invoke function args, all => by
    obtain ⟨called, args_all⟩ := Expr.all_invoke.mp all
    have listed := Code.closed_commas (Expr.closed_codes args args_all)
    exact called.closed_append nofun (Code.closed_within listed)
  | .construct type fields, all => by
    obtain ⟨named, each⟩ := Expr.all_construct.mp all
    refine Code.Closed.append named (Code.closed_within (Code.closed_commas ?_))
    simpa using each
  | .ref writable operand, all => by
    have inner := operand.closed_asOperand (operand.closed_code (Expr.all_ref.mp all).2)
    exact (Code.closed_punct _ (Code.closed_mut writable)).append inner
  | .not operand, all => by
    have inner := operand.closed_asOperand (operand.closed_code (Expr.all_not.mp all).2)
    exact Code.closed_punct _ inner
  | .attempt operand, all => by
    have inner := operand.closed_asOperand (operand.closed_code (Expr.all_attempt.mp all).2)
    exact inner.append (Code.closed_punct _ .nil)
  | .binary op left right, all => by
    obtain ⟨-, left_all, right_all⟩ := Expr.all_binary.mp all
    have first := left.closed_asOperand (left.closed_code left_all)
    have second := right.closed_asOperand (right.closed_code right_all)
    exact (first.append op.closed_code).append second
  | .choice scrutinee arms, all => by
    obtain ⟨patterns, scrutinee_all, bodies⟩ := Expr.all_choice.mp all
    have inner := scrutinee.closed_asOperand (scrutinee.closed_code scrutinee_all)
    have listed := Arm.closed_codes arms patterns bodies
    exact (Code.closed_plain _ (by decide) inner).append (Code.closed_within listed)

theorem Expr.closed_codes : (exprs : List Expr) → (∀ expr ∈ exprs, expr.All (Node.Closed known)) →
    ∀ code ∈ Expr.codes exprs, Code.Closed known code
  | [], _, _, member => nomatch member
  | expr :: rest, all, code, member => by
    obtain ⟨first, later⟩ := List.forall_mem_cons.mp all
    rcases List.mem_cons.mp member with rfl | member
    · exact expr.closed_code first
    · exact Expr.closed_codes rest later code member

theorem Arm.closed_code : (arm : Arm) → Code.Closed known arm.pattern →
    Body.All (Node.Closed known) arm.body → Code.Closed known arm.code
  | .mk pattern body, patterns, all => by
    have inner : Code.Closed known (Body.code .value body) := Body.closed_code .value body all
    have first : Code.Closed known (pattern ++ Code.sign ['=', '>']) :=
      Code.Closed.append patterns (Code.closed_sign _)
    unfold Arm.code
    split
    next same =>
      obtain ⟨rfl, rfl⟩ := Arm.mk.inj same
      exact (first.append inner).append (Code.closed_punct _ .nil)
    next same =>
      obtain ⟨rfl, rfl⟩ := Arm.mk.inj same
      exact first.append (Code.closed_within inner)

theorem Arm.closed_codes : (arms : List Arm) → (∀ arm ∈ arms, Code.Closed known arm.pattern) →
    (∀ arm ∈ arms, Body.All (Node.Closed known) arm.body) → Code.Closed known (Arm.codes arms)
  | [], _, _ => .nil
  | arm :: rest, patterns, all => by
    obtain ⟨pattern, patterns⟩ := List.forall_mem_cons.mp patterns
    obtain ⟨first, later⟩ := List.forall_mem_cons.mp all
    exact (arm.closed_code pattern first).append (Arm.closed_codes rest patterns later)

theorem Cond.closed_code : (cond : Cond) → cond.All (Node.Closed known) →
    (∀ binding value, cond = .binds binding value → Code.Closed known binding.code) →
    Code.Closed known cond.code
  | .holds expr, all, _ => expr.closed_code (Cond.all_holds.mp all)
  | .binds binding value, all, bound => by
    have inner := value.closed_code (Cond.all_binds.mp all)
    have first := (bound binding value rfl).append (Code.closed_punct '=' .nil)
    exact Code.closed_plain _ (by decide) (first.append inner)

theorem Stmt.closed_code (role : Role) : (stmt : Stmt) → stmt.All (Node.Closed known) →
    Code.Closed known (stmt.code role)
  | .decl writable x type none, all => by
    obtain ⟨name, typed⟩ := Stmt.all_decl_none.mp all
    have first := (Code.closed_plain "let" (by decide) (Code.closed_mut writable)).append name
    exact ((first.append (Code.closed_typed typed)).append .nil).append (Code.closed_punct _ .nil)
  | .decl writable x type (some value), all => by
    obtain ⟨⟨name, typed⟩, value_all⟩ := Stmt.all_decl.mp all
    have first := (Code.closed_plain "let" (by decide) (Code.closed_mut writable)).append name
    have last := Code.closed_punct '=' (value.closed_code value_all)
    exact ((first.append (Code.closed_typed typed)).append last).append (Code.closed_punct _ .nil)
  | .assign target value, all => by
    obtain ⟨-, target_all, value_all⟩ := Stmt.all_assign.mp all
    have first := (target.closed_code target_all).append (Code.closed_punct '=' .nil)
    exact (first.append (value.closed_code value_all)).append (Code.closed_punct _ .nil)
  | .expr value, all => by
    have inner := value.closed_code (Stmt.all_expr.mp all).2
    unfold Stmt.code
    split
    · exact inner
    · exact inner.append (Code.closed_punct _ .nil)
  | .each binding source body, all => by
    obtain ⟨bound, source_all, body_all⟩ := Stmt.all_each.mp all
    have first := (Code.closed_plain "for" (by decide) bound).append
      (Code.closed_plain "in" (by decide) .nil)
    have inner := Body.closed_code .plain body body_all
    exact (first.append (source.closed_code source_all)).append (Code.closed_within inner)
  | .branch cond body none, all => by
    obtain ⟨bound, cond_all, body_all⟩ := Stmt.all_branch_none.mp all
    have first := cond.closed_code cond_all fun binding value same => by cases same; exact bound
    have inner := Body.closed_code .plain body body_all
    exact ((Code.closed_plain "if" (by decide) first).append (Code.closed_within inner)).append .nil
  | .branch cond body (some otherwise), all => by
    obtain ⟨bound, ⟨cond_all, body_all⟩, otherwise_all⟩ := Stmt.all_branch.mp all
    have first := cond.closed_code cond_all fun binding value same => by cases same; exact bound
    have inner := Body.closed_code .plain body body_all
    have last := Body.closed_code .plain otherwise otherwise_all
    exact ((Code.closed_plain "if" (by decide) first).append (Code.closed_within inner)).append
      (Code.closed_plain "else" (by decide) (Code.closed_within last))
  | .ret value, all => by
    have inner := value.closed_code (Stmt.all_ret.mp all).2
    unfold Stmt.code
    split
    · exact inner
    · exact (Code.closed_plain _ (by decide) inner).append (Code.closed_punct _ .nil)

theorem Body.closed_code (role : Role) : (body : List Stmt) → Body.All (Node.Closed known) body →
    Code.Closed known (Body.code role body)
  | [], _ => .nil
  | [stmt], all => stmt.closed_code role (Body.all_cons.mp all).1
  | stmt :: next :: rest, all => by
    obtain ⟨first, later⟩ := Body.all_cons.mp all
    exact (stmt.closed_code .plain first).append (Body.closed_code role (next :: rest) later)

end

end EntityGen
