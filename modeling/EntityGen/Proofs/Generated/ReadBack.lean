import EntityGen.Proofs.Generated.ReadRules

/-! Bodies are read back from their marks. Brackets, semicolons and commas stand where an expression
would be read on without them: each form of an expression, an arm and a statement is read up to its
end and no further. -/
namespace EntityGen

attribute [local simp] Expr.named Stmt.named Cond.named

namespace Expr

def isChoice : Expr → Bool
  | choice .. => true
  | _ => false

def isDisjunction : Expr → Bool
  | binary .or .. => true
  | _ => false

def isPlace : Expr → Bool
  | name _ | field .. | literal [.word _] => true
  | _ => false

/-- The expression is written with a struct that stands outside of all brackets. -/
def exposes : Expr → Bool
  | construct .. => true
  | field base _ | call base _ _ | ref _ base | not base | attempt base =>
    !base.isCompound && base.exposes
  | binary _ left right =>
    !left.isCompound && left.exposes || !right.isCompound && right.exposes
  | literal _ | name _ | invoke .. | choice .. => false

/-- The same of an expression that is an operand. -/
def exposesInside (expr : Expr) : Bool := !expr.isCompound && expr.exposes

end Expr

/-- What a part needs to be read back: what is assigned to is a name or a field, no struct stands
bare in a head, and what a condition binds is not written with `||` outside of brackets. -/
def Node.Legible : Node → Prop
  | .expr (.choice scrutinee _) => scrutinee.exposesInside = false
  | .stmt (.assign target _) => target.isPlace = true
  | .stmt (.each _ source _) => source.exposes = false
  | .stmt (.branch (.holds value) _ _) => value.exposes = false
  | .stmt (.branch (.binds _ value) _ _) => value.exposes = false ∧ value.isDisjunction = false
  | _ => True

namespace Expr

/-- As an operand, the expression is read up to its end, and then what stands behind it as calls,
fields and `?` of it, with at least the steps that its own marks have left. -/
def Chains (expr : Expr) : Prop :=
  ∀ n structs rest, 8 * (expr.operandMarks expr.marks).length < n →
    (structs = false → expr.exposesInside = false) → Parse.opens structs rest = false →
    ∃ m, n ≤ m + 8 * (expr.operandMarks expr.marks).length ∧
      Parse.unary n structs (expr.operandMarks expr.marks ++ rest) =
        Parse.suffixes m expr.named rest

/-- A reader reads the expression back from its marks, if it may take enough steps and the
expression ends behind them. -/
def ReadBy (read : Nat → Bool → List Mark → Option (Expr × List Mark)) (spare : Nat)
    (Ends : Bool → List Mark → Prop) (expr : Expr) : Prop :=
  ∀ n structs rest, 8 * expr.marks.length + spare ≤ n → (structs = false → expr.exposes = false) →
    Ends structs rest → read n structs (expr.marks ++ rest) = some (expr.named, rest)

/-- The expression is read back wherever it can stand. -/
structure Readable (expr : Expr) : Prop where
  chains : expr.Chains
  whole : expr.ReadBy Parse.expr 3 Parse.ExprEnds
  equality : expr.isDisjunction = false → expr.ReadBy Parse.equality 2 Parse.EqualityEnds
  atom : expr.isChoice = true → expr.ReadBy Parse.atom 0 fun _ _ => True

variable {expr base operand left right scrutinee : Expr} {args : List Expr}
  {arms : List Arm} {n : Nat} {structs : Bool} {rest : List Mark}

theorem Chains.unary (chains : expr.Chains) (n : Nat) (structs : Bool) (rest : List Mark)
    (enough : 8 * (expr.operandMarks expr.marks).length < n)
    (bare : structs = false → expr.exposesInside = false) (ends : Parse.OperandEnds structs rest) :
    Parse.unary n structs (expr.operandMarks expr.marks ++ rest) = some (expr.named, rest) := by
  obtain ⟨m, left, read⟩ := chains n structs rest enough bare ends.opens
  obtain ⟨m, rfl⟩ : ∃ k, m = k + 1 := ⟨m - 1, by omega⟩
  rw [read, Parse.suffixes_stop ends.suffixed]

theorem ReadBy.equality (read : expr.ReadBy Parse.unary 1 Parse.OperandEnds) :
    expr.ReadBy Parse.equality 2 Parse.EqualityEnds
  | n + 1, structs, rest, enough, bare, ends =>
    Parse.equality_of_unary (read n structs rest (by omega) bare ends.toOperandEnds) ends.equated

theorem ReadBy.whole (read : expr.ReadBy Parse.equality 2 Parse.EqualityEnds) :
    expr.ReadBy Parse.expr 3 Parse.ExprEnds
  | n + 2, structs, rest, enough, bare, ends =>
    Parse.expr_of_equality (read (n + 1) structs rest (by omega) bare ends.toEqualityEnds)
      (Parse.disjunction_stop ends.disjoined)

/-- In brackets an expression is an operand. -/
theorem ReadBy.chains (compound : expr.isCompound = true)
    (read : expr.ReadBy Parse.expr 3 Parse.ExprEnds) : expr.Chains := by
  intro n structs rest enough _ _
  have written : expr.operandMarks expr.marks ++ rest =
      .opening .round :: (expr.marks ++ .closing .round :: rest) := by
    simp [operandMarks, compound, Mark.within]
  have length : (expr.operandMarks expr.marks).length = expr.marks.length + 2 := by
    simp [operandMarks, compound, Mark.within]
  obtain ⟨n, rfl⟩ : ∃ k, n = k + 3 := ⟨n - 3, by omega⟩
  have inner : Parse.expr (n + 1) true (expr.marks ++ .closing .round :: rest) =
      some (expr.named, .closing .round :: rest) :=
    read _ _ _ (by omega) (by simp) (.closing .round)
  exact ⟨n + 2, by omega, by rw [written, Parse.unary_of_atom (Parse.atom_brackets inner)]⟩

theorem operandMarks_of_simple (simple : expr.isCompound = false) :
    expr.operandMarks expr.marks = expr.marks := by
  simp [operandMarks, simple]

theorem exposesInside_of_simple (simple : expr.isCompound = false) :
    expr.exposesInside = expr.exposes := by
  simp [exposesInside, simple]

theorem isCompound_of_isChoice (choice : expr.isChoice = true) : expr.isCompound = true := by
  cases expr <;> trivial

theorem Readable.of_chains (simple : expr.isCompound = false) (chains : expr.Chains) :
    expr.Readable := by
  have unary : expr.ReadBy Parse.unary 1 Parse.OperandEnds := by
    intro n structs rest enough bare ends
    have read := chains.unary n structs rest
    rw [operandMarks_of_simple simple, exposesInside_of_simple simple] at read
    exact read enough bare ends
  refine ⟨chains, unary.equality.whole, fun _ => unary.equality, fun choice => ?_⟩
  rw [isCompound_of_isChoice choice] at simple
  cases simple

theorem Readable.of_unary (compound : expr.isCompound = true) (other : expr.isChoice = false)
    (unary : expr.ReadBy Parse.unary 1 Parse.OperandEnds) : expr.Readable where
  chains := unary.equality.whole.chains compound
  whole := unary.equality.whole
  equality := fun _ => unary.equality
  atom := fun choice => absurd choice (Bool.eq_false_iff.mp other)

theorem Readable.of_operand {code : Code} (simple : expr.isCompound = false)
    (written : expr.marks = [.operand code]) (read : expr.named = .ofCode code) :
    expr.Readable := by
  refine .of_chains simple fun n structs rest enough _ ends => ?_
  rw [operandMarks_of_simple simple, written] at enough ⊢
  simp only [List.length_singleton, List.singleton_append] at enough ⊢
  obtain ⟨n, rfl⟩ : ∃ k, n = k + 2 := ⟨n - 2, by omega⟩
  exact ⟨n + 1, by omega, by rw [read, Parse.unary_of_atom (Parse.atom_operand ends)]⟩

theorem readable_literal (code : Code) : (literal code).Readable :=
  .of_operand rfl rfl rfl

theorem readable_name (x : Ident) : (name x).Readable := .of_operand rfl rfl rfl

/-- What stands behind an operand is read as calls, fields and `?` of it. -/
theorem Readable.of_suffix (suffix : List Mark) (readable : base.Readable)
    (simple : expr.isCompound = false)
    (written : expr.marks = base.operandMarks base.marks ++ suffix)
    (bare : expr.exposes = base.exposesInside)
    (apart : ∀ structs rest, Parse.opens structs (suffix ++ rest) = false)
    (read : ∀ n structs rest, 8 * suffix.length < n → Parse.opens structs rest = false →
      ∃ m, n ≤ m + 8 * suffix.length ∧
        Parse.suffixes n base.named (suffix ++ rest) = Parse.suffixes m expr.named rest) :
    expr.Readable := by
  refine .of_chains simple fun n structs rest enough noStruct ends => ?_
  rw [operandMarks_of_simple simple, written] at enough ⊢
  rw [exposesInside_of_simple simple, bare] at noStruct
  rw [List.length_append] at enough ⊢
  obtain ⟨m, left, first⟩ := readable.chains n structs (suffix ++ rest) (by omega) noStruct
    (apart structs rest)
  obtain ⟨k, spare, later⟩ := read m structs rest (by omega) ends
  exact ⟨k, by omega, by rw [List.append_assoc, first, later]⟩

theorem readable_field (x : Ident) (readable : base.Readable) : (field base x).Readable := by
  refine readable.of_suffix [.punct '.', .word x] rfl (by rw [marks]) rfl (fun _ _ => rfl)
    fun n structs rest enough ends => ?_
  obtain ⟨n, rfl⟩ : ∃ k, n = k + 1 := ⟨n - 1, by omega⟩
  exact ⟨n, by simp, Parse.suffixes_field ends⟩

theorem readable_attempt (readable : operand.Readable) : operand.attempt.Readable := by
  refine readable.of_suffix [.punct '?'] rfl (by rw [marks]) rfl (fun _ _ => rfl)
    fun n structs rest enough ends => ?_
  obtain ⟨n, rfl⟩ : ∃ k, n = k + 1 := ⟨n - 1, by omega⟩
  exact ⟨n, by simp, Parse.suffixes_attempt⟩

def ReadableArgs (args : List Expr) : Prop :=
  ∀ n rest, 8 * (marksOfAll args).length + 4 ≤ n →
    Parse.args n (marksOfAll args ++ .closing .round :: rest) = some (namedOfAll args, rest)

theorem readable_call (method : Ident) (readable : base.Readable)
    (readableArgs : ReadableArgs args) : (call base method args).Readable := by
  refine readable.of_suffix
    (.punct '.' :: .word method :: Mark.within .round (marksOfAll args)) rfl (by rw [marks]) rfl
    (fun _ _ => rfl) fun n structs rest enough ends => ?_
  simp only [Mark.within, List.length_cons, List.length_append, List.length_nil] at enough ⊢
  obtain ⟨n, rfl⟩ : ∃ k, n = k + 1 := ⟨n - 1, by omega⟩
  have read := readableArgs n rest (by omega)
  refine ⟨n, by omega, ?_⟩
  simpa using Parse.suffixes_call read

theorem readable_invoke (function : Code) (readableArgs : ReadableArgs args) :
    (invoke function args).Readable := by
  refine .of_chains rfl fun n structs rest enough _ _ => ?_
  have written : (invoke function args).operandMarks (invoke function args).marks =
      .operand function :: Mark.within .round (marksOfAll args) := by
    rw [operandMarks_of_simple rfl, marks]
  rw [written] at enough ⊢
  simp only [Mark.within, List.length_cons, List.length_append, List.length_nil] at enough ⊢
  obtain ⟨n, rfl⟩ : ∃ k, n = k + 2 := ⟨n - 2, by omega⟩
  have read := readableArgs n rest (by omega)
  refine ⟨n + 1, by omega, ?_⟩
  simpa using Parse.unary_of_atom (Parse.atom_invoke read)

theorem readable_construct (type : Code) (fields : List Ident) :
    (construct type fields).Readable := by
  refine .of_chains rfl fun n structs rest enough bare _ => ?_
  -- In a head the type alone would be read, and the brace as what follows the head.
  obtain rfl : structs = true := by
    cases structs with
    | true => rfl
    | false => cases bare rfl
  have written : (construct type fields).operandMarks (construct type fields).marks =
      .operand type :: Mark.within .curly (Mark.names fields) := by
    rw [operandMarks_of_simple rfl, marks]
  rw [written] at enough ⊢
  simp only [Mark.within, List.length_cons, List.length_append, List.length_nil] at enough ⊢
  obtain ⟨n, rfl⟩ : ∃ k, n = k + 2 := ⟨n - 2, by omega⟩
  refine ⟨n + 1, by omega, ?_⟩
  simpa using Parse.unary_of_atom (Parse.atom_construct (Parse.fields_names fields rest))

/-- An operand begins as an expression does, and not as a choice. -/
theorem begins_operand (rest : List Mark)
    (begins : ∀ rest, Parse.starts (expr.marks ++ rest) = true ∧
      Parse.startsChoice (expr.marks ++ rest) = expr.isChoice) :
    Parse.starts (expr.operandMarks expr.marks ++ rest) = true ∧
      Parse.startsChoice (expr.operandMarks expr.marks ++ rest) = false := by
  by_cases compound : expr.isCompound = true
  · simp [operandMarks, compound, Mark.within, Parse.starts, Parse.startsChoice]
  · have other : expr.isChoice = false := by
      rw [Bool.eq_false_iff]
      exact fun choice => compound (isCompound_of_isChoice choice)
    rw [operandMarks_of_simple (Bool.eq_false_iff.mpr compound), ← other]
    exact begins rest

theorem begins : (expr : Expr) → (rest : List Mark) →
    Parse.starts (expr.marks ++ rest) = true ∧
      Parse.startsChoice (expr.marks ++ rest) = expr.isChoice
  | literal _, _ | name _, _ | invoke .., _ | construct .., _ => ⟨rfl, rfl⟩
  | ref .., _ | not _, _ | choice .., _ => ⟨rfl, rfl⟩
  | field base x, rest => by
    rw [marks, List.append_assoc]
    exact begins_operand _ base.begins
  | call receiver method args, rest => by
    rw [marks, List.append_assoc]
    exact begins_operand _ receiver.begins
  | attempt operand, rest => by
    rw [marks, List.append_assoc]
    exact begins_operand _ operand.begins
  | binary op left right, rest => by
    rw [marks, List.append_assoc]
    exact begins_operand _ left.begins

theorem starts_operand (expr : Expr) (rest : List Mark) :
    Parse.starts (expr.operandMarks expr.marks ++ rest) = true :=
  (begins_operand rest expr.begins).1

theorem readable_ref (writable : Bool) (readable : operand.Readable) :
    (ref writable operand).Readable := by
  refine .of_unary rfl rfl fun n structs rest enough bare ends => ?_
  have shorter : (operand.operandMarks operand.marks).length <
      (ref writable operand).marks.length := by
    simp only [marks, List.length_append, List.length_cons]
    omega
  obtain ⟨n, rfl⟩ : ∃ k, n = k + 1 := ⟨n - 1, by omega⟩
  have read := readable.chains.unary n structs rest (by omega) bare ends
  cases writable with
  | false => simpa [marks] using Parse.unary_ref read (operand.starts_operand rest)
  | true => simpa [marks] using Parse.unary_ref_mut read

theorem readable_not (readable : operand.Readable) : operand.not.Readable := by
  refine .of_unary rfl rfl fun n structs rest enough bare ends => ?_
  obtain ⟨n, rfl⟩ : ∃ k, n = k + 1 := ⟨n - 1, by omega⟩
  rw [marks] at enough ⊢
  rw [List.length_cons] at enough
  have read := readable.chains.unary n structs rest (by omega) bare ends
  simpa using Parse.unary_not read

theorem length_spelled_code (op : BinaryOp) : (Mark.spelled op.code).length = 2 := by
  cases op <;> rfl

theorem bare_binary {op : BinaryOp} (bare : (binary op left right).exposes = false) :
    left.exposesInside = false ∧ right.exposesInside = false := by
  simpa only [exposes, exposesInside, Bool.or_eq_false_iff] using bare

theorem readable_eq (first : left.Readable) (second : right.Readable) :
    (binary .eq left right).Readable := by
  have equality : (binary .eq left right).ReadBy Parse.equality 2 Parse.EqualityEnds := by
    intro n structs rest enough bare ends
    rw [marks] at enough ⊢
    simp only [List.length_append, length_spelled_code] at enough
    obtain ⟨n, rfl⟩ : ∃ k, n = k + 1 := ⟨n - 1, by omega⟩
    have read := first.chains.unary n structs
      (.punct '=' :: .punct '=' :: (right.operandMarks right.marks ++ rest)) (by omega)
      (fun noStruct => (bare_binary (bare noStruct)).1) ⟨rfl, rfl⟩
    have later := second.chains.unary n structs rest (by omega)
      (fun noStruct => (bare_binary (bare noStruct)).2) ends.toOperandEnds
    simpa [BinaryOp.code, Code.sign, Mark.spelled] using Parse.equality_eq read later
  refine ⟨equality.whole.chains rfl, equality.whole, fun _ => equality, fun isChoice => ?_⟩
  cases isChoice

theorem readable_or (first : left.Readable) (second : right.Readable) :
    (binary .or left right).Readable := by
  have whole : (binary .or left right).ReadBy Parse.expr 3 Parse.ExprEnds := by
    intro n structs rest enough bare ends
    rw [marks] at enough ⊢
    simp only [List.length_append, length_spelled_code] at enough
    obtain ⟨n, rfl⟩ : ∃ k, n = k + 3 := ⟨n - 3, by omega⟩
    have read := first.chains.unary (n + 1) structs
      (.punct '|' :: .punct '|' :: (right.operandMarks right.marks ++ rest)) (by omega)
      (fun noStruct => (bare_binary (bare noStruct)).1) ⟨rfl, rfl⟩
    have later := second.chains.unary n structs rest (by omega)
      (fun noStruct => (bare_binary (bare noStruct)).2) ends.toOperandEnds
    have both := Parse.expr_of_equality (Parse.equality_of_unary read rfl)
      (Parse.disjunction_or (Parse.equality_of_unary later ends.equated)
        (Parse.disjunction_stop ends.disjoined))
    simpa [BinaryOp.code, Code.sign, Mark.spelled] using both
  refine ⟨whole.chains rfl, whole, fun other => ?_, fun isChoice => ?_⟩
  · cases other
  · cases isChoice

def ReadableArms (arms : List Arm) : Prop :=
  ∀ n rest, 8 * (Arm.marksOfAll arms).length + 4 ≤ n →
    Parse.arms n (Arm.marksOfAll arms ++ .closing .curly :: rest) = some (Arm.namedOfAll arms, rest)

theorem readable_choice (bare : scrutinee.exposesInside = false) (readable : scrutinee.Readable)
    (readableArms : ReadableArms arms) : (choice scrutinee arms).Readable := by
  have atom : (choice scrutinee arms).ReadBy Parse.atom 0 fun _ _ => True := by
    intro n structs rest enough _ _
    rw [marks] at enough ⊢
    simp only [Mark.within, List.length_cons, List.length_append, List.length_nil] at enough
    obtain ⟨n, rfl⟩ : ∃ k, n = k + 4 := ⟨n - 4, by omega⟩
    have read := readable.chains.unary (n + 1) false
      (.opening .curly :: (Arm.marksOfAll arms ++ .closing .curly :: rest)) (by omega)
      (fun _ => bare) ⟨rfl, rfl⟩
    have head := Parse.expr_of_equality (Parse.equality_of_unary read rfl)
      (Parse.disjunction_stop rfl)
    have later := readableArms (n + 3) rest (by omega)
    simpa [Mark.within] using Parse.atom_choice head later
  have unary : (choice scrutinee arms).ReadBy Parse.unary 1 Parse.OperandEnds := by
    intro n structs rest enough bare ends
    have written : 0 < (choice scrutinee arms).marks.length := by simp [marks]
    obtain ⟨n, rfl⟩ : ∃ k, n = k + 2 := ⟨n - 2, by omega⟩
    have read := atom (n + 1) structs rest (by omega) bare trivial
    rw [Parse.unary_of_atom read, Parse.suffixes_stop ends.suffixed]
  have whole := unary.equality.whole
  exact ⟨whole.chains rfl, whole, fun _ => unary.equality, fun _ => atom⟩

theorem readableArgs : (args : List Expr) → (∀ arg ∈ args, arg.Readable) → ReadableArgs args
  | [], _, n + 1, _, _ => by rw [marksOfAll]; exact Parse.args_nil
  | [arg], readable, n + 1, rest, enough => by
    have readable := readable arg (List.mem_singleton_self arg)
    rw [marksOfAll] at enough ⊢
    have read := readable.whole n true (.closing .round :: rest) (by omega) nofun
      (.closing .round)
    exact Parse.args_last (arg.begins _).1 read
  | arg :: other :: args, readable, n + 1, rest, enough => by
    obtain ⟨first, others⟩ := List.forall_mem_cons.mp readable
    rw [marksOfAll] at enough ⊢
    rw [List.append_assoc, List.cons_append]
    rw [List.length_append, List.length_cons] at enough
    have read := first.whole n true
      (.punct ',' :: (marksOfAll (other :: args) ++ .closing .round :: rest)) (by omega) nofun
      .comma
    have later := readableArgs (other :: args) others n rest (by omega)
    exact Parse.args_cons (arg.begins _).1 read later
    all_goals nofun

end Expr

/-- The statement is read back, inside of a body and at its end. -/
structure Stmt.Readable (stmt : Stmt) : Prop where
  inner : ∀ n role rest, 8 * (stmt.marks .plain).length + 5 ≤ n → Parse.otherwise rest = false →
    Parse.stmt n role (stmt.marks .plain ++ rest) = some (stmt.named, rest)
  last : ∀ n role rest, 8 * (stmt.marks role).length + 5 ≤ n → Parse.atEnd rest = true →
    Parse.stmt n role (stmt.marks role ++ rest) = some (stmt.named, rest)
  value : ∀ expr, stmt = .expr expr → expr.Readable

namespace Body

def Readable (role : Role) (body : List Stmt) : Prop :=
  ∀ n rest, 8 * (marks role body).length + 6 ≤ n → Parse.atEnd rest = true →
    Parse.body n role (marks role body ++ rest) = some (named body, rest)

/-- Where a statement begins, the body goes on, and the statement in front of it does not. -/
theorem goesOn_stmt (role : Role) (stmt : Stmt) (rest : List Mark) :
    Parse.atEnd (stmt.marks role ++ rest) = false ∧
      Parse.otherwise (stmt.marks role ++ rest) = false := by
  cases stmt with
  | decl | each | branch => exact ⟨rfl, rfl⟩
  | assign target value =>
    rw [Stmt.marks, List.append_assoc]
    exact Parse.goesOn_of_starts (target.begins _).1
  | expr value =>
    rw [Stmt.marks]
    split
    · exact Parse.goesOn_of_starts (value.begins _).1
    · rw [List.append_assoc]
      exact Parse.goesOn_of_starts (value.begins _).1
  | ret value =>
    rw [Stmt.marks]
    split
    · exact Parse.goesOn_of_starts (value.begins _).1
    · exact ⟨rfl, rfl⟩

theorem marks_stmt_pos (role : Role) (stmt : Stmt) : 0 < (stmt.marks role).length := by
  rw [List.length_pos_iff]
  intro none
  have goesOn := (goesOn_stmt role stmt []).1
  rw [none] at goesOn
  cases goesOn

theorem otherwise_marks (role : Role) (stmt : Stmt) (rest : List Stmt) (behind : List Mark) :
    Parse.otherwise (marks role (stmt :: rest) ++ behind) = false := by
  cases rest with
  | nil =>
    rw [marks]
    exact (goesOn_stmt role stmt behind).2
  | cons other rest =>
    rw [marks, List.append_assoc]
    · exact (goesOn_stmt .plain stmt _).2
    · nofun

theorem readable_of_forall (role : Role) : (body : List Stmt) → (∀ stmt ∈ body, stmt.Readable) →
    Readable role body
  | [], _, n + 1, rest, _, ends => Parse.body_nil ends
  | [stmt], readable, n + 2, rest, enough, ends => by
    have readable := readable stmt (List.mem_singleton_self stmt)
    rw [marks] at enough ⊢
    have read := readable.last (n + 1) role rest (by omega) ends
    exact Parse.body_cons (goesOn_stmt role stmt rest).1 read (Parse.body_nil ends)
  | stmt :: other :: rest, readable, n + 1, behind, enough, ends => by
    obtain ⟨first, others⟩ := List.forall_mem_cons.mp readable
    rw [marks] at enough ⊢
    rw [List.append_assoc]
    rw [List.length_append] at enough
    have begun := marks_stmt_pos .plain stmt
    have later := readable_of_forall role (other :: rest) others n behind (by omega) ends
    have read := first.inner n role (marks role (other :: rest) ++ behind) (by omega)
      (otherwise_marks role other rest behind)
    exact Parse.body_cons (goesOn_stmt .plain stmt _).1 read later
    all_goals nofun

end Body

namespace Arm

variable {pattern : Code} {body : List Stmt} {value : Expr}

theorem marks_of_several (several : ∀ value, body ≠ [.expr value]) :
    (mk pattern body).marks = .operand pattern :: .punct '=' :: .punct '>' ::
      Mark.within .curly (Body.marks .value body) := by
  rw [marks]
  exact several

theorem marks_pos (arm : Arm) : 0 < arm.marks.length := by
  obtain ⟨pattern, body⟩ := arm
  unfold marks
  split <;> exact Nat.succ_pos _

/-- The body of an arm is read from its marks. -/
theorem readable_body (pattern : Code) (body : List Stmt)
    (readable : ∀ stmt ∈ body, stmt.Readable) (n : Nat) (rest : List Mark)
    (enough : 8 * (mk pattern body).marks.length ≤ n + 4) :
    ∃ marks, (mk pattern body).marks ++ rest =
        .operand pattern :: .punct '=' :: .punct '>' :: marks ∧
      Parse.armBody n marks = some (Body.named body, rest) := by
  by_cases single : ∃ value, body = [.expr value]
  · obtain ⟨value, rfl⟩ := single
    have readable := (readable _ (List.mem_singleton_self _)).value value rfl
    refine ⟨value.marks ++ .punct ',' :: rest, by simp [marks], ?_⟩
    rw [marks] at enough
    simp only [List.length_cons, List.length_append, List.length_nil] at enough
    obtain ⟨n, rfl⟩ : ∃ k, n = k + 1 := ⟨n - 1, by omega⟩
    have read := readable.whole n true (.punct ',' :: rest) (by omega) nofun .comma
    exact Parse.armBody_value (value.begins _).1 read
  · have several : ∀ value, body ≠ [.expr value] := fun value same => single ⟨value, same⟩
    refine ⟨.opening .curly :: (Body.marks .value body ++ .closing .curly :: rest),
      by simp [marks_of_several several, Mark.within], ?_⟩
    rw [marks_of_several several] at enough
    simp only [Mark.within, List.length_cons, List.length_append, List.length_nil] at enough
    obtain ⟨n, rfl⟩ : ∃ k, n = k + 2 := ⟨n - 2, by omega⟩
    have read := Body.readable_of_forall .value body readable n (.closing .curly :: rest)
      (by omega) rfl
    exact Parse.armBody_braced (Parse.braced_of_body read)

end Arm

theorem Expr.readableArms : (arms : List Arm) → (∀ arm ∈ arms, ∀ stmt ∈ arm.body, stmt.Readable) →
    ReadableArms arms
  | [], _, n + 1, _, _ => by rw [Arm.marksOfAll]; exact Parse.arms_nil
  | .mk pattern body :: arms, readable, n + 1, rest, enough => by
    obtain ⟨first, others⟩ := List.forall_mem_cons.mp readable
    rw [Arm.marksOfAll] at enough ⊢
    rw [List.length_append] at enough
    obtain ⟨marks, written, read⟩ := Arm.readable_body pattern body first n
      (Arm.marksOfAll arms ++ .closing .curly :: rest) (by omega)
    have begun := (Arm.mk pattern body).marks_pos
    have later := readableArms arms others n rest (by omega)
    rw [List.append_assoc, written]
    exact Parse.arms_cons read later

namespace Stmt

variable {target value : Expr} {body : List Stmt} {stmt : Stmt}

/-- Inside of a body and at its end, the statement is written alike. -/
theorem Readable.of_same (same : ∀ role, stmt.marks role = stmt.marks .plain)
    (other : ∀ expr, stmt ≠ .expr expr)
    (read : ∀ n role rest, 8 * (stmt.marks .plain).length + 5 ≤ n →
      Parse.otherwise rest = false →
      Parse.stmt n role (stmt.marks .plain ++ rest) = some (stmt.named, rest)) : stmt.Readable where
  inner := read
  last := fun n role rest enough ends => by
    rw [same] at enough ⊢
    exact read n role rest enough (Parse.otherwise_of_atEnd ends)
  value := fun expr is => absurd is (other expr)

theorem isChoice_of_isPlace (place : target.isPlace = true) : target.isChoice = false := by
  cases target <;> trivial

theorem readable_assign (place : target.isPlace = true) (left : target.Readable)
    (right : value.Readable) : (assign target value).Readable := by
  refine .of_same (fun _ => by simp only [marks]) nofun fun n role rest enough _ => ?_
  rw [marks] at enough ⊢
  simp only [List.length_cons, List.length_append, List.length_nil] at enough
  obtain ⟨n, rfl⟩ : ∃ k, n = k + 2 := ⟨n - 2, by omega⟩
  have read := left.whole (n + 1) true (.punct '=' :: (value.marks ++ .punct ';' :: rest))
    (by omega) nofun (.assignment (value.begins _).1)
  have later := right.whole n true (.punct ';' :: rest) (by omega) nofun .semicolon
  obtain ⟨begins, simple⟩ := target.begins (.punct '=' :: (value.marks ++ .punct ';' :: rest))
  have whole := Parse.stmt_of_expr role begins
    (simple.trans (isChoice_of_isPlace place)) read
  rw [Parse.completed_assign later] at whole
  simpa using whole

theorem declaredName_marks (writable : Bool) (x : Ident) (rest : List Mark)
    (ends : ∀ y behind, rest ≠ .word y :: behind) :
    Parse.declaredName ((if writable then [.plain "mut"] else []) ++ .word x :: rest) =
      some (writable, x, rest) := by
  cases writable with
  | false => exact Parse.declaredName_word ends
  | true => exact Parse.declaredName_mut

theorem readable_decl_none (writable : Bool) (x : Ident) (type : Option Code) :
    (decl writable x type none).Readable := by
  refine .of_same (fun _ => by simp only [marks]) (by simp) fun n role rest enough _ => ?_
  obtain ⟨n, rfl⟩ : ∃ k, n = k + 2 := ⟨n - 2, by omega⟩
  have initial := Parse.declaredValue_none n rest
  cases type with
  | none =>
    have name := declaredName_marks writable x (.punct ';' :: rest) (by simp)
    have read := Parse.stmt_decl role name (Parse.declaredType_none (by simp)) initial
    simpa [marks] using read
  | some type =>
    have name := declaredName_marks writable x
      (.punct ':' :: .operand type :: .punct ';' :: rest) (by simp)
    have read := Parse.stmt_decl role name Parse.declaredType_operand initial
    simpa [marks] using read

theorem readable_decl (writable : Bool) (x : Ident) (type : Option Code)
    (readable : value.Readable) : (decl writable x type (some value)).Readable := by
  refine .of_same (fun _ => by simp only [marks]) (by simp) fun n role rest enough _ => ?_
  have shorter : value.marks.length <
      ((decl writable x type (some value)).marks .plain).length := by
    simp only [marks, List.length_cons, List.length_append]
    omega
  obtain ⟨n, rfl⟩ : ∃ k, n = k + 2 := ⟨n - 2, by omega⟩
  have inner := readable.whole n true (.punct ';' :: rest) (by omega) (by simp) .semicolon
  have initial := Parse.declaredValue_some inner
  cases type with
  | none =>
    have name := declaredName_marks writable x
      (.punct '=' :: (value.marks ++ .punct ';' :: rest)) (by simp)
    have read := Parse.stmt_decl role name (Parse.declaredType_none (by simp)) initial
    simpa [marks] using read
  | some type =>
    have name := declaredName_marks writable x
      (.punct ':' :: .operand type :: .punct '=' :: (value.marks ++ .punct ';' :: rest)) (by simp)
    have read := Parse.stmt_decl role name Parse.declaredType_operand initial
    simpa [marks] using read

/-- An expression is read where a statement begins, and a choice no further than to its brace. -/
theorem stmt_marks (readable : value.Readable) (n : Nat) (role : Role) (rest : List Mark)
    (enough : 8 * value.marks.length + 3 ≤ n) (ends : Parse.ExprEnds true rest) :
    Parse.stmt (n + 1) role (value.marks ++ rest) =
      if value.isChoice then some (Parse.completedChoice role value.named rest)
      else Parse.completed n role value.named rest := by
  obtain ⟨begins, choice⟩ := value.begins rest
  split
  next isChoice =>
    exact Parse.stmt_choice role (choice.trans isChoice)
      (readable.atom isChoice n true rest (by omega) nofun trivial)
  next other =>
    exact Parse.stmt_of_expr role begins (choice.trans (Bool.eq_false_iff.mpr other))
      (readable.whole n true rest enough nofun ends)

theorem stmt_semicolon (readable : value.Readable) (n : Nat) (role : Role) (rest : List Mark)
    (enough : 8 * value.marks.length + 5 ≤ n) :
    Parse.stmt n role (value.marks ++ .punct ';' :: rest) = some (.expr value.named, rest) := by
  obtain ⟨n, rfl⟩ : ∃ k, n = k + 2 := ⟨n - 2, by omega⟩
  rw [stmt_marks readable (n + 1) role _ (by omega) .semicolon]
  split
  next => rfl
  next => exact Parse.completed_expr

theorem stmt_last {last : Stmt} (readable : value.Readable) (n : Nat) (role : Role)
    (rest : List Mark) (enough : 8 * value.marks.length + 5 ≤ n) (ends : Parse.atEnd rest = true)
    (isLast : role.last? value.named = some last) :
    Parse.stmt n role (value.marks ++ rest) = some (last, rest) := by
  obtain ⟨n, rfl⟩ : ∃ k, n = k + 2 := ⟨n - 2, by omega⟩
  rw [stmt_marks readable (n + 1) role _ (by omega) (.of_atEnd ends)]
  split
  next => rw [Parse.completedChoice_last ends isLast]
  next => exact Parse.completed_last ends isLast

theorem readable_expr (readable : value.Readable) : (expr value).Readable := by
  have terminated : ∀ n role written rest, written ≠ .value →
      8 * ((expr value).marks written).length + 5 ≤ n →
      Parse.stmt n role ((expr value).marks written ++ rest) = some ((expr value).named, rest) := by
    intro n role written rest other enough
    have same : (expr value).marks written = value.marks ++ [.punct ';'] := by
      simp [marks, other]
    rw [same, List.length_append] at enough
    rw [same, List.append_assoc, named]
    exact stmt_semicolon readable n role rest (by omega)
  refine ⟨fun n role rest enough _ => terminated n role .plain rest (by decide) enough,
    fun n role rest enough ends => ?_, fun _ same => expr.inj same ▸ readable⟩
  by_cases isValue : role = .value
  · obtain rfl := isValue
    have same : (expr value).marks .value = value.marks := by rw [marks]; rfl
    rw [same] at enough ⊢
    exact stmt_last readable n .value rest enough ends rfl
  · exact terminated n role role rest isValue enough

theorem stmt_return (readable : value.Readable) (n : Nat) (role : Role) (rest : List Mark)
    (enough : 8 * value.marks.length + 5 ≤ n) :
    Parse.stmt n role (.plain "return" :: (value.marks ++ .punct ';' :: rest)) =
      some (.ret value.named, rest) := by
  obtain ⟨n, rfl⟩ : ∃ k, n = k + 1 := ⟨n - 1, by omega⟩
  exact Parse.stmt_return role
    (readable.whole n true (.punct ';' :: rest) (by omega) nofun .semicolon)

theorem readable_ret (readable : value.Readable) : (ret value).Readable := by
  have terminated : ∀ n role written rest, written ≠ .method →
      8 * ((ret value).marks written).length + 5 ≤ n →
      Parse.stmt n role ((ret value).marks written ++ rest) = some ((ret value).named, rest) := by
    intro n role written rest other enough
    have same : (ret value).marks written =
        .plain "return" :: (value.marks ++ [.punct ';']) := by
      simp [marks, other]
    rw [same, List.length_cons, List.length_append] at enough
    rw [same, List.cons_append, List.append_assoc, named]
    exact stmt_return readable n role rest (by omega)
  refine ⟨fun n role rest enough _ => terminated n role .plain rest (by decide) enough,
    fun n role rest enough ends => ?_, nofun⟩
  by_cases isMethod : role = .method
  · obtain rfl := isMethod
    have same : (ret value).marks .method = value.marks := by rw [marks]; rfl
    rw [same] at enough ⊢
    exact stmt_last readable n .method rest enough ends rfl
  · exact terminated n role role rest isMethod enough

/-- A body in braces is read. -/
theorem braced_body (readable : ∀ stmt ∈ body, stmt.Readable) (role : Role) (n : Nat)
    (rest : List Mark) (enough : 8 * (Body.marks role body).length + 7 ≤ n) :
    Parse.braced n role (Mark.within .curly (Body.marks role body) ++ rest) =
      some (Body.named body, rest) := by
  obtain ⟨n, rfl⟩ : ∃ k, n = k + 1 := ⟨n - 1, by omega⟩
  have read := Body.readable_of_forall role body readable n (.closing .curly :: rest)
    (by omega) rfl
  simpa [Mark.within] using Parse.braced_of_body read

theorem readable_each (binding : Binding) (bare : value.exposes = false) (source : value.Readable)
    (readable : ∀ stmt ∈ body, stmt.Readable) : (each binding value body).Readable := by
  refine .of_same (fun _ => by simp only [marks]) nofun fun n role rest enough _ => ?_
  rw [marks] at enough ⊢
  simp only [List.length_cons, List.length_append, Mark.within, List.length_nil] at enough
  obtain ⟨n, rfl⟩ : ∃ k, n = k + 1 := ⟨n - 1, by omega⟩
  have read := source.whole n false (Mark.within .curly (Body.marks .plain body) ++ rest)
    (by omega) (fun _ => bare) .brace
  have later := braced_body readable .plain n rest (by omega)
  simpa using Parse.stmt_each role binding read later

def ReadableCond (cond : Cond) : Prop :=
  ∀ n rest, 8 * cond.marks.length + 4 ≤ n →
    Parse.cond n (cond.marks ++ .opening .curly :: rest) =
      some (cond.named, .opening .curly :: rest)

theorem readable_holds (bare : value.exposes = false) (readable : value.Readable) :
    ReadableCond (.holds value)
  | n + 1, rest, enough => by
    rw [Cond.marks] at enough ⊢
    exact Parse.cond_holds (value.begins _).1
      (readable.whole n false (.opening .curly :: rest) (by omega) (fun _ => bare)
        .brace)

theorem readable_binds (binding : Binding) (bare : value.exposes = false)
    (simple : value.isDisjunction = false) (readable : value.Readable) :
    ReadableCond (.binds binding value)
  | n + 1, rest, enough => by
    rw [Cond.marks] at enough ⊢
    simp only [List.length_cons, List.length_append] at enough
    have read := readable.equality simple n false (.opening .curly :: rest) (by omega)
      (fun _ => bare) Parse.ExprEnds.brace.toEqualityEnds
    simpa using Parse.cond_binds binding read

theorem readable_branch_none {cond : Cond} (head : ReadableCond cond)
    (readable : ∀ stmt ∈ body, stmt.Readable) : (branch cond body none).Readable := by
  refine .of_same (fun _ => by simp only [marks]) nofun fun n role rest enough ends => ?_
  simp only [marks, Mark.within, List.length_cons, List.length_append, List.length_nil] at enough
  obtain ⟨n, rfl⟩ : ∃ k, n = k + 1 := ⟨n - 1, by omega⟩
  have read := head n (Body.marks .plain body ++ .closing .curly :: rest) (by omega)
  have later := braced_body readable .plain n rest (by omega)
  simp only [Mark.within, List.cons_append, List.append_assoc, List.nil_append] at later
  simpa [marks, Mark.within] using Parse.stmt_branch role read later ends

theorem readable_branch {cond : Cond} {otherwise : List Stmt} (head : ReadableCond cond)
    (readable : ∀ stmt ∈ body, stmt.Readable) (others : ∀ stmt ∈ otherwise, stmt.Readable) :
    (branch cond body (some otherwise)).Readable := by
  refine .of_same (fun _ => by simp only [marks]) nofun fun n role rest enough _ => ?_
  simp only [marks, Mark.within, List.length_cons, List.length_append, List.length_nil] at enough
  obtain ⟨n, rfl⟩ : ∃ k, n = k + 1 := ⟨n - 1, by omega⟩
  have last := braced_body others .plain n rest (by omega)
  have later := braced_body readable .plain n
    (.plain "else" :: (Mark.within .curly (Body.marks .plain otherwise) ++ rest)) (by omega)
  have read := head n (Body.marks .plain body ++ .closing .curly ::
    .plain "else" :: (Mark.within .curly (Body.marks .plain otherwise) ++ rest)) (by omega)
  simp only [Mark.within, List.cons_append, List.append_assoc, List.nil_append] at read later last
  simpa [marks, Mark.within] using Parse.stmt_branch_else role read later last

end Stmt

mutual

-- By recursion on the syntax: the form of an expression or a statement is read back if its parts
-- are, which is where the parts are legible.
theorem Expr.readable : (expr : Expr) → expr.All Node.Legible → expr.Readable
  | .literal code, _ => Expr.readable_literal code
  | .name x, _ => Expr.readable_name x
  | .field base x, all => Expr.readable_field x (base.readable (Expr.all_field.mp all).2)
  | .call receiver method args, all => by
    obtain ⟨-, first, others⟩ := Expr.all_call.mp all
    exact Expr.readable_call method (receiver.readable first)
      (Expr.readableArgs args (Expr.readable_all args others))
  | .invoke function args, all => by
    obtain ⟨-, others⟩ := Expr.all_invoke.mp all
    exact Expr.readable_invoke function (Expr.readableArgs args (Expr.readable_all args others))
  | .construct type fields, _ => Expr.readable_construct type fields
  | .ref writable operand, all =>
    Expr.readable_ref writable (operand.readable (Expr.all_ref.mp all).2)
  | .not operand, all => Expr.readable_not (operand.readable (Expr.all_not.mp all).2)
  | .attempt operand, all => Expr.readable_attempt (operand.readable (Expr.all_attempt.mp all).2)
  | .binary .eq left right, all => by
    obtain ⟨-, first, second⟩ := Expr.all_binary.mp all
    exact Expr.readable_eq (left.readable first) (right.readable second)
  | .binary .or left right, all => by
    obtain ⟨-, first, second⟩ := Expr.all_binary.mp all
    exact Expr.readable_or (left.readable first) (right.readable second)
  | .choice scrutinee arms, all => by
    obtain ⟨bare, first, others⟩ := Expr.all_choice.mp all
    exact Expr.readable_choice bare (scrutinee.readable first)
      (Expr.readableArms arms (Arm.readable_all arms others))

theorem Expr.readable_all : (exprs : List Expr) → (∀ expr ∈ exprs, expr.All Node.Legible) →
    ∀ expr ∈ exprs, expr.Readable
  | [], _ => nofun
  | expr :: rest, all => by
    obtain ⟨first, others⟩ := List.forall_mem_cons.mp all
    exact List.forall_mem_cons.mpr ⟨expr.readable first, Expr.readable_all rest others⟩

theorem Arm.readable_all : (arms : List Arm) → (∀ arm ∈ arms, Body.All Node.Legible arm.body) →
    ∀ arm ∈ arms, ∀ stmt ∈ arm.body, stmt.Readable
  | [], _ => nofun
  | .mk pattern body :: rest, all => by
    obtain ⟨first, others⟩ := List.forall_mem_cons.mp all
    exact List.forall_mem_cons.mpr ⟨Body.readable_all body first, Arm.readable_all rest others⟩

theorem Stmt.readable : (stmt : Stmt) → stmt.All Node.Legible → stmt.Readable
  | .decl writable x type none, _ => Stmt.readable_decl_none writable x type
  | .decl writable x type (some value), all =>
    Stmt.readable_decl writable x type (value.readable (Stmt.all_decl.mp all).2)
  | .assign target value, all => by
    obtain ⟨place, first, second⟩ := Stmt.all_assign.mp all
    exact Stmt.readable_assign place (target.readable first) (value.readable second)
  | .expr value, all => Stmt.readable_expr (value.readable (Stmt.all_expr.mp all).2)
  | .each binding source body, all => by
    obtain ⟨bare, first, others⟩ := Stmt.all_each.mp all
    exact Stmt.readable_each binding bare (source.readable first) (Body.readable_all body others)
  | .branch (.holds value) body none, all => by
    obtain ⟨bare, first, others⟩ := Stmt.all_branch_none.mp all
    exact Stmt.readable_branch_none (Stmt.readable_holds bare (value.readable first))
      (Body.readable_all body others)
  | .branch (.binds binding value) body none, all => by
    obtain ⟨⟨bare, simple⟩, first, others⟩ := Stmt.all_branch_none.mp all
    exact Stmt.readable_branch_none (Stmt.readable_binds binding bare simple (value.readable first))
      (Body.readable_all body others)
  | .branch (.holds value) body (some otherwise), all => by
    obtain ⟨bare, ⟨first, others⟩, last⟩ := Stmt.all_branch.mp all
    exact Stmt.readable_branch (Stmt.readable_holds bare (value.readable first))
      (Body.readable_all body others) (Body.readable_all otherwise last)
  | .branch (.binds binding value) body (some otherwise), all => by
    obtain ⟨⟨bare, simple⟩, ⟨first, others⟩, last⟩ := Stmt.all_branch.mp all
    exact Stmt.readable_branch (Stmt.readable_binds binding bare simple (value.readable first))
      (Body.readable_all body others) (Body.readable_all otherwise last)
  | .ret value, all => Stmt.readable_ret (value.readable (Stmt.all_ret.mp all).2)

theorem Body.readable_all : (body : List Stmt) → Body.All Node.Legible body →
    ∀ stmt ∈ body, stmt.Readable
  | [], _ => nofun
  | stmt :: rest, all => by
    obtain ⟨first, others⟩ := Body.all_cons.mp all
    exact List.forall_mem_cons.mpr ⟨stmt.readable first, Body.readable_all rest others⟩

end

end EntityGen
