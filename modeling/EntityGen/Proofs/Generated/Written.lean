import EntityGen.Proofs.Generated.Nodes
import EntityGen.Proofs.Grammar.Methods

/-! Bodies that are read wherever they stand. What an expression or a statement is read as depends
on its own parts alone, because an operand that binds less tightly stands in brackets. -/
namespace EntityGen

open Code

/-- A path that can be called. On its own, `crate` begins the path of a call that makes code. -/
def Code.IsFunction (code : Code) : Prop := IsPath code ∧ code ≠ [.plain "crate"]

theorem Code.IsPath.isFunction_step {code : Code} {x : Ident} (path : IsPath code)
    (step : x.IsStep) : IsFunction (code.step x) := by
  refine ⟨path.step step, fun same => ?_⟩
  have length := congrArg List.length same
  simp [Code.step, sign] at length

/-- In front of a field, a call or a question mark, a literal is read together with it. -/
def Expr.Leads : Expr → Prop
  | .literal code => IsChain code
  | _ => True

/-- What stands in the part itself can be read: its names are no keywords, its literals are
operands, and its functions are paths. Choices and structs are bodies of their own. -/
def Node.Readable : Node → Prop
  | .expr (.literal code) => IsOperand code ∧ code.head? ≠ some (.punct '&')
  | .expr (.name x) => x.isKeyword = false
  | .expr (.field base x) => base.Leads ∧ x.isKeyword = false
  | .expr (.call receiver method _) => receiver.Leads ∧ method.isKeyword = false
  | .expr (.invoke function _) => IsFunction function
  | .expr (.construct ..) | .expr (.choice ..) => False
  | .expr (.attempt operand) => operand.Leads
  | .stmt (.assign target value) => target.isCompound = false ∧ value.isCompound = false
  | .stmt (.decl _ x type value) =>
    x.isKeyword = false ∧ (∀ code ∈ type, IsType code) ∧ value.isSome
  | .stmt (.each binding ..) => ∀ x ∈ binding.words, x.isKeyword = false
  | .stmt (.branch (.holds _) _ otherwise) => otherwise = none
  | .stmt (.branch (.binds binding value) _ otherwise) =>
    otherwise = none ∧ value.isCompound = false ∧ ∀ x ∈ binding.words, x.isKeyword = false
  | _ => True

/-- The expression is read wherever it stands, in brackets where it needs them. -/
structure Expr.Reads (expr : Expr) : Prop where
  whole : IsExpr expr.code
  operand : IsOperand (expr.asOperand expr.code)
  unborrowed : (expr.asOperand expr.code).head? ≠ some (.punct '&')
  chain : expr.Leads → IsChain (expr.asOperand expr.code)

/-- An expression without brackets begins with no borrow. -/
theorem Code.BeginsChain.unborrowed {code : Code} (begins : BeginsChain code) :
    code.head? ≠ some (.punct '&') := by
  obtain ⟨token, later, rfl, ⟨x, rfl, -⟩ | ⟨text, rfl⟩ | rfl | listed⟩ := begins
  · nofun
  · nofun
  · nofun
  · intro same
    obtain rfl := Option.some.inj same
    exact absurd listed (by decide)

namespace Expr

variable {expr base receiver operand left right : Expr} {args : List Expr} {x method : Ident}
  {function code : Code}

theorem asOperand_of_tight (tight : expr.isCompound = false) (code : Code) :
    expr.asOperand code = code := by
  rw [asOperand, tight, if_neg Bool.false_ne_true]

theorem Reads.of_chain (chain : IsChain expr.code) (tight : expr.isCompound = false) :
    expr.Reads := by
  have same := asOperand_of_tight tight expr.code
  refine ⟨chain.isOperand.isExpr, ?_, ?_, fun _ => ?_⟩ <;> rw [same]
  · exact chain.isOperand
  · exact chain.begins.unborrowed
  · exact chain

/-- What binds less tightly is an operand in brackets. -/
theorem Reads.of_compound (whole : IsExpr expr.code) (loose : expr.isCompound = true) :
    expr.Reads := by
  have same : expr.asOperand expr.code = within .round (commas [expr.code]) := by
    rw [asOperand, loose, if_pos rfl, commas_singleton]
  have chain : IsChain (within .round (commas [expr.code])) :=
    (isAtom_parens (List.forall_mem_singleton.mpr whole)).isChain
  refine ⟨whole, ?_, ?_, fun _ => ?_⟩ <;> rw [same]
  · exact chain.isOperand
  · nofun
  · exact chain

theorem reads_literal (readable : Node.Readable (.expr (.literal code))) :
    (literal code).Reads where
  whole := readable.1.isExpr
  operand := readable.1
  unborrowed := readable.2
  chain leads := leads

theorem reads_name (free : x.isKeyword = false) : (name x).Reads := by
  refine .of_chain ((isPath_word (.inl free)).isAtom ?_).isChain rfl
  rintro same
  obtain rfl := Token.word.inj (List.cons.inj same).1
  exact absurd free (by decide)

theorem reads_field (reads : base.Reads) (leads : base.Leads) (free : x.isKeyword = false) :
    (field base x).Reads :=
  .of_chain ((reads.chain leads).step (.field free)) rfl

theorem reads_call (reads : receiver.Reads) (leads : receiver.Leads)
    (free : method.isKeyword = false) (each : ∀ code ∈ codes args, IsExpr code) :
    (call receiver method args).Reads := by
  have chain := (reads.chain leads).step (.call free each)
  exact .of_chain (by simpa [Expr.code] using chain) rfl

theorem reads_invoke (known : IsFunction function) (each : ∀ code ∈ codes args, IsExpr code) :
    (invoke function args).Reads :=
  .of_chain ((known.1.isAtom known.2).isChain_call each) rfl

theorem reads_ref (writable : Bool) (reads : operand.Reads) : (ref writable operand).Reads := by
  refine .of_compound (reads.operand.borrowed ?_ reads.unborrowed).isExpr rfl
  cases writable
  · exact .inl rfl
  · exact .inr rfl

theorem reads_not (reads : operand.Reads) : operand.not.Reads :=
  .of_compound (reads.operand.signed (by decide)).isExpr rfl

theorem reads_attempt (reads : operand.Reads) (leads : operand.Leads) : operand.attempt.Reads :=
  .of_chain ((reads.chain leads).step .attempt) rfl

theorem reads_binary (op : BinaryOp) (first : left.Reads) (second : right.Reads) :
    (binary op left right).Reads :=
  .of_compound (isExpr_binary op first.operand second.operand) rfl

end Expr

mutual

-- By recursion on the syntax; no part that can be read is a choice, so that no body is inside.
theorem Expr.reads : (expr : Expr) → expr.All Node.Readable → expr.Reads
  | .literal _, all => Expr.reads_literal (Expr.all_literal.mp all)
  | .name _, all => Expr.reads_name (Expr.all_name.mp all)
  | .field base _, all => by
    obtain ⟨⟨leads, free⟩, inner⟩ := Expr.all_field.mp all
    exact Expr.reads_field (base.reads inner) leads free
  | .call receiver _ args, all => by
    obtain ⟨⟨leads, free⟩, first, others⟩ := Expr.all_call.mp all
    exact Expr.reads_call (receiver.reads first) leads free (Expr.reads_all args others)
  | .invoke _ args, all => by
    obtain ⟨known, others⟩ := Expr.all_invoke.mp all
    exact Expr.reads_invoke known (Expr.reads_all args others)
  | .construct .., all => (Expr.all_construct.mp all).elim
  | .ref writable operand, all => Expr.reads_ref writable (operand.reads (Expr.all_ref.mp all).2)
  | .not operand, all => Expr.reads_not (operand.reads (Expr.all_not.mp all).2)
  | .attempt operand, all => by
    obtain ⟨leads, inner⟩ := Expr.all_attempt.mp all
    exact Expr.reads_attempt (operand.reads inner) leads
  | .binary op left right, all => by
    obtain ⟨-, first, second⟩ := Expr.all_binary.mp all
    exact Expr.reads_binary op (left.reads first) (right.reads second)
  | .choice .., all => (Expr.all_choice.mp all).1.elim

theorem Expr.reads_all : (exprs : List Expr) → (∀ expr ∈ exprs, expr.All Node.Readable) →
    ∀ code ∈ Expr.codes exprs, IsExpr code
  | [], _ => List.forall_mem_nil _
  | expr :: rest, all => by
    obtain ⟨first, others⟩ := List.forall_mem_cons.mp all
    exact List.forall_mem_cons.mpr ⟨(expr.reads first).whole, Expr.reads_all rest others⟩

end

theorem Cond.isCondition_code {cond : Cond} {body : List Stmt} {otherwise : Option (List Stmt)}
    (readable : Node.Readable (.stmt (.branch cond body otherwise)))
    (all : cond.All Node.Readable) : IsCondition cond.code := by
  cases cond with
  | holds expr => exact (expr.reads all).whole.isCondition
  | binds binding value =>
    obtain ⟨-, tight, free⟩ := readable
    have operand := (value.reads all).operand
    rw [Expr.asOperand_of_tight tight] at operand
    have condition := isCondition_let (isPattern_binding binding free) operand
    simpa [Cond.code] using condition

structure Stmt.Reads (stmt : Stmt) : Prop where
  plain : IsStatement (stmt.code .plain)
  last : ∀ role, IsStatement (stmt.code role) ∨ IsTail (stmt.code role)

/-- The code of a body is that of statements, and perhaps a value behind them. -/
def Body.Reads (body : List Stmt) : Prop :=
  ∀ role, ∃ (codes : List Code) (tail : Code), (∀ code ∈ codes, IsStatement code) ∧
    (tail = [] ∨ IsTail tail) ∧ Body.code role body = codes.flatten ++ tail

theorem Body.Reads.isBody {body : List Stmt} (reads : Body.Reads body) (role : Role) :
    IsBody (Body.code role body) := by
  obtain ⟨codes, tail, statements, last, spelled⟩ := reads role
  rw [spelled]
  exact isBody_of_parts statements last

namespace Stmt

variable {x : Ident} {type : Option Code} {value target source : Expr} {binding : Binding}
  {cond : Cond} {body : List Stmt} {stmt : Stmt}

theorem Reads.of_same (same : ∀ role, stmt.code role = stmt.code .plain)
    (plain : IsStatement (stmt.code .plain)) : stmt.Reads :=
  ⟨plain, fun role => .inl (same role ▸ plain)⟩

theorem reads_decl (writable : Bool) (free : x.isKeyword = false)
    (types : ∀ code ∈ type, IsType code) (reads : value.Reads) :
    (decl writable x type (some value)).Reads := by
  have marks : (if writable then [.plain "mut"] else ([] : Code)) = [] ∨
      (if writable then [.plain "mut"] else ([] : Code)) = [.plain "mut"] := by
    cases writable <;> simp
  refine .of_same (fun _ => rfl) ?_
  cases type with
  | none => simpa [Stmt.code] using isStatement_decl marks free (.inl rfl) reads.whole
  | some inner =>
    have typed := isStatement_decl marks free (.inr ⟨inner, types inner rfl, rfl⟩) reads.whole
    simpa [Stmt.code] using typed

theorem reads_assign (first : target.Reads) (second : value.Reads)
    (place : target.isCompound = false) (tight : value.isCompound = false) :
    (assign target value).Reads := by
  have left := first.operand
  have right := second.operand
  rw [Expr.asOperand_of_tight place] at left
  rw [Expr.asOperand_of_tight tight] at right
  exact .of_same (fun _ => rfl) (isExpr_assign left right).isStatement

theorem reads_expr (reads : value.Reads) : (expr value).Reads where
  plain := reads.whole.isStatement
  last role := by
    cases role
    case value => exact .inr reads.whole.isTail
    all_goals exact .inl reads.whole.isStatement

theorem reads_ret (reads : value.Reads) : (ret value).Reads where
  plain := reads.whole.isStatement_return
  last role := by
    cases role
    case method => exact .inr reads.whole.isTail
    all_goals exact .inl reads.whole.isStatement_return

theorem reads_each (free : ∀ x ∈ binding.words, x.isKeyword = false) (reads : source.Reads)
    (inner : Body.Reads body) : (each binding source body).Reads := by
  have statement :=
    isStatement_for (isPattern_binding binding free) reads.whole (inner.isBody .plain)
  refine .of_same (fun _ => rfl) ?_
  simpa [Stmt.code] using statement

theorem reads_branch (condition : IsCondition cond.code) (inner : Body.Reads body) :
    (branch cond body none).Reads := by
  have statement := isStatement_if condition (inner.isBody .plain)
  refine .of_same (fun _ => rfl) ?_
  simpa [Stmt.code] using statement

end Stmt

namespace Body

variable {stmt : Stmt} {body : List Stmt}

theorem reads_nil : Reads [] := fun _ => ⟨[], [], List.forall_mem_nil _, .inl rfl, rfl⟩

theorem reads_cons (first : stmt.Reads) (others : Reads body) : Reads (stmt :: body) := by
  intro role
  cases body with
  | nil =>
    rcases first.last role with statement | tail
    · exact ⟨[stmt.code role], [], List.forall_mem_singleton.mpr statement, .inl rfl,
        by simp [Body.code]⟩
    · exact ⟨[], stmt.code role, List.forall_mem_nil _, .inr tail, by simp [Body.code]⟩
  | cons next later =>
    obtain ⟨codes, tail, statements, last, spelled⟩ := others role
    refine ⟨stmt.code .plain :: codes, tail,
      List.forall_mem_cons.mpr ⟨first.plain, statements⟩, last, ?_⟩
    rw [Body.code, spelled, List.flatten_cons, List.append_assoc]
    exact List.cons_ne_nil _ _

end Body

mutual

-- By recursion on the syntax: the form of a statement is read if its parts are.
theorem Stmt.reads : (stmt : Stmt) → stmt.All Node.Readable → stmt.Reads
  | .decl writable x type none, all => by
    obtain ⟨-, -, given⟩ := Stmt.all_decl_none.mp all
    cases given
  | .decl writable x type (some value), all => by
    obtain ⟨⟨free, types, -⟩, inner⟩ := Stmt.all_decl.mp all
    exact Stmt.reads_decl writable free types (value.reads inner)
  | .assign target value, all => by
    obtain ⟨⟨place, tight⟩, first, second⟩ := Stmt.all_assign.mp all
    exact Stmt.reads_assign (target.reads first) (value.reads second) place tight
  | .expr value, all => Stmt.reads_expr (value.reads (Stmt.all_expr.mp all).2)
  | .each binding source body, all => by
    obtain ⟨free, first, others⟩ := Stmt.all_each.mp all
    exact Stmt.reads_each free (source.reads first) (Body.reads_all body others)
  | .branch cond body none, all => by
    obtain ⟨readable, first, others⟩ := Stmt.all_branch_none.mp all
    exact Stmt.reads_branch (Cond.isCondition_code readable first) (Body.reads_all body others)
  | .branch (.holds value) body (some otherwise), all => by
    obtain ⟨absent, -⟩ := Stmt.all_branch.mp all
    cases absent
  | .branch (.binds binding value) body (some otherwise), all => by
    obtain ⟨⟨absent, -⟩, -⟩ := Stmt.all_branch.mp all
    cases absent
  | .ret value, all => Stmt.reads_ret (value.reads (Stmt.all_ret.mp all).2)

theorem Body.reads_all : (body : List Stmt) → Body.All Node.Readable body → Body.Reads body
  | [], _ => Body.reads_nil
  | stmt :: rest, all => by
    obtain ⟨first, others⟩ := Body.all_cons.mp all
    exact Body.reads_cons (stmt.reads first) (Body.reads_all rest others)

end

/-- A body of which each part can be read is a body wherever it stands. -/
theorem Body.isBody_of_all {body : List Stmt} (all : Body.All Node.Readable body) (role : Role) :
    IsBody (Body.code role body) :=
  (Body.reads_all body all).isBody role

/-- An arm is read wherever it stands. -/
theorem Arm.isArm {arm : Arm} (known : IsPattern arm.pattern)
    (all : Body.All Node.Readable arm.body) : IsArm arm.code := by
  obtain ⟨pattern, body⟩ := arm
  unfold Arm.code
  split
  next value same =>
    obtain ⟨rfl, rfl⟩ := Arm.mk.inj same
    obtain ⟨first, -⟩ := Body.all_cons.mp all
    have arm := isArm_value known (value.reads (Stmt.all_expr.mp first).2).whole
    simpa [Arm.pattern, Arm.body] using arm
  next same =>
    obtain ⟨rfl, rfl⟩ := Arm.mk.inj same
    have arm := isArm_body known (Body.isBody_of_all all .value)
    simpa [Arm.pattern, Arm.body] using arm

theorem Arm.isArm_all : (arms : List Arm) →
    (∀ arm ∈ arms, IsPattern arm.pattern ∧ Body.All Node.Readable arm.body) →
    ∃ codes : List Code, (∀ code ∈ codes, IsArm code) ∧ Arm.codes arms = codes.flatten
  | [], _ => ⟨[], List.forall_mem_nil _, rfl⟩
  | arm :: rest, all => by
    obtain ⟨⟨known, inner⟩, others⟩ := List.forall_mem_cons.mp all
    obtain ⟨codes, each, spelled⟩ := Arm.isArm_all rest others
    refine ⟨arm.code :: codes, List.forall_mem_cons.mpr ⟨Arm.isArm known inner, each⟩, ?_⟩
    rw [Arm.codes, spelled, List.flatten_cons]

/-- A choice is the value of a method. -/
theorem Body.isBody_choice {code : Code} {arms : List Arm} (known : IsOperand code)
    (all : ∀ arm ∈ arms, IsPattern arm.pattern ∧ Body.All Node.Readable arm.body) :
    IsBody (Body.code .method [.ret (.choice (.literal code) arms)]) := by
  obtain ⟨codes, each, spelled⟩ := Arm.isArm_all arms all
  have body : IsBody (([] : List Code).flatten ++ _) :=
    isBody_of_parts (List.forall_mem_nil _) (.inr (isTail_choice known.isExpr each))
  simpa [Body.code, Stmt.code, Expr.code, Expr.asOperand, Expr.isCompound, spelled] using body

/-- A struct is the value of a method. -/
theorem Body.isBody_construct {type : Code} {fields : List Ident} (known : IsFunction type)
    (free : ∀ x ∈ fields, x.isKeyword = false) :
    IsBody (Body.code .method [.ret (.construct type fields)]) := by
  have body : IsBody (([] : List Code).flatten ++ _) :=
    isBody_of_parts (List.forall_mem_nil _) (.inr (isTail_construct known.1 known.2 free))
  simpa [Body.code, Stmt.code, Expr.code] using body

end EntityGen
