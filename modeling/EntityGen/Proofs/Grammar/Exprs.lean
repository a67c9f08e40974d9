import EntityGen.Proofs.Grammar.Operands

/-! Expressions that are read wherever they stand: operands with an operator between them or without
one, and what stands in a condition. -/
namespace EntityGen.Code

open Rules Scan

variable {code rest target value left right whole : Code} {literals : Bool} {depth level : Nat}
  {g : Rules}
  {shape : Shape}

theorem BeginsExpr.append (begins : BeginsExpr code) (wordless : Wordless rest) :
    BeginsExpr (code ++ rest) := by
  obtain ⟨token, later, rfl, kind⟩ := begins
  refine ⟨token, later ++ rest, rfl, kind.imp_left ?_⟩
  rintro ⟨x, same, known, other⟩
  exact ⟨x, same, known, other.append wordless⟩

theorem BeginsExpr.length_pos (begins : BeginsExpr code) : 0 < code.length := by
  obtain ⟨token, later, rfl, -⟩ := begins
  exact Nat.succ_pos _

/-- What is read by the rule of expressions itself is read one call deeper. -/
theorem isExpr_of_form (begins : BeginsExpr code)
    (value : ∀ literals rest, EndsExpr literals rest → IsValue (code ++ rest))
    (form : ∀ literals depth rest, code.length ≤ depth + 1 → EndsExpr literals rest →
      (exprFrom (nested depth) literals).Yields (code ++ rest) Simple rest) : IsExpr code where
  begins := begins
  value := value
  reads literals depth rest enough ends := by
    have some := begins.length_pos
    cases depth with
    | zero => omega
    | succ depth => exact form literals depth rest enough ends

theorem Simple.ne_range (simple : Simple shape) : (shape == .range) = false := by
  rcases simple with rfl | rfl <;> rfl

theorem yields_climbFrom_stop (simple : Simple shape) (ends : EndsExpr literals rest) :
    (climbFrom g literals level shape).Yields rest (· = shape) rest := by
  refine yields_folded_stop rfl (yields_ahead fun lexemes lexed => ?_)
  obtain ⟨noOperator, noAssign, noRange, noCast⟩ := ends.unoperated lexed
  rw [simple.ne_range, noOperator, noAssign, noRange, noCast]
  simp only [Bool.and_false, Bool.false_eq_true, if_false]
  exact yields_pure rfl

/-- One operator stands behind an operand, and then the expression ends. -/
theorem yields_climbFrom_once (shorter : rest.length < whole.length) (ends : EndsExpr literals rest)
    (once : (climbOnce g literals level .plain).Yields whole
      (fun next => ∃ shape, next = some shape ∧ Simple shape) rest) :
    (climbFrom g literals level .plain).Yields whole Simple rest := by
  refine yields_folded
    (fun shape here => Simple shape ∧ here = rest ∨ shape = .plain ∧ here = whole) ?_
    (.inr ⟨rfl, rfl⟩)
  rintro shape _ (⟨simple, rfl⟩ | ⟨rfl, rfl⟩)
  · refine .inl ⟨simple, yields_ahead fun lexemes lexed => ?_⟩
    obtain ⟨noOperator, noAssign, noRange, noCast⟩ := ends.unoperated lexed
    rw [simple.ne_range, noOperator, noAssign, noRange, noCast]
    simp only [Bool.and_false, Bool.false_eq_true, if_false]
    exact yields_pure rfl
  · refine .inr ⟨rest, shorter, once.mono fun next => ?_⟩
    rintro ⟨shape, rfl, simple⟩
    exact ⟨shape, rfl, .inl ⟨simple, rfl⟩⟩

theorem IsOperand.reaches_right (operand : IsOperand code) (enough : code.length ≤ depth)
    (ends : EndsExpr literals rest) :
    (rightOperand (nested depth) literals level).Reaches (code ++ rest) rest := by
  refine (operand.reads literals depth rest enough ends.endsOperand).bind fun right _ => ?_
  refine Yields.discard (?_ : Yields _ rest (· = right) rest)
  refine yields_folded_stop rfl (yields_ahead fun lexemes lexed => ?_)
  obtain ⟨noOperator, noAssign, noRange, noCast⟩ := ends.unoperated lexed
  have none : levelAhead lexemes = 0 := by simp [levelAhead, noOperator, noAssign, noRange, noCast]
  have lower : (decide (level < levelAhead lexemes) ||
      (levelAhead lexemes == level && level == 1)) = false := by
    rw [none]
    simp
    omega
  dsimp only
  rw [lower, if_neg Bool.false_ne_true]
  exact yields_pure rfl

theorem IsOperand.isExpr (operand : IsOperand code) : IsExpr code := by
  have value : ∀ literals rest, EndsExpr literals rest → IsValue (code ++ rest) :=
    fun literals rest ends => operand.value literals rest ends.endsOperand
  refine isExpr_of_form operand.begins value fun literals depth rest enough ends => ?_
  have read : (operandFrom (nested depth) literals).Yields (code ++ rest) (· = .plain) rest :=
    operand.reads literals (depth + 1) rest enough ends.endsOperand
  refine read.bind fun shape plain => ?_
  subst plain
  exact (yields_climbFrom_stop (.inl rfl) ends).mono fun _ same => .inl same

/-- Two operands with a sign between them that goes on with nothing. -/
theorem isExpr_infix {between : Code} (first : IsOperand left)
    (begins : ∃ c later, between = .punct c :: later ∧ c ∈ ['=', '|'])
    (once : ∀ literals depth rest, right.length ≤ depth → EndsExpr literals rest →
      (climbOnce (nested depth) literals 0 .plain).Yields (between ++ (right ++ rest))
        (fun next => ∃ shape, next = some shape ∧ Simple shape) rest) :
    IsExpr (left ++ between ++ right) := by
  obtain ⟨c, later, rfl, listed⟩ := begins
  have operator {literals : Bool} {rest : Code} :
      EndsOperand literals (.punct c :: later ++ rest) :=
    .inr ⟨c, _, rfl, listed⟩
  have some := first.begins.length_pos
  rw [List.append_assoc]
  refine isExpr_of_form (first.begins.append nofun) (fun literals rest _ => ?_)
    fun literals depth rest enough ends => ?_
  · rw [List.append_assoc, List.append_assoc]
    exact first.value literals _ operator
  · simp only [List.length_append, List.length_cons] at enough
    rw [List.append_assoc, List.append_assoc]
    have read : (operandFrom (nested depth) literals).Yields
        (left ++ (.punct c :: later ++ (right ++ rest))) (· = .plain)
          (.punct c :: later ++ (right ++ rest)) :=
      first.reads literals (depth + 1) _ (by omega) operator
    refine read.bind fun shape plain => ?_
    subst plain
    refine yields_climbFrom_once ?_ ends (once literals depth rest (by omega) ends)
    simp only [List.length_append, List.length_cons]
    omega

theorem isExpr_binary (op : BinaryOp) (first : IsOperand left) (second : IsOperand right) :
    IsExpr (left ++ op.code ++ right) := by
  have begins : ∃ c later, op.code = .punct c :: later ∧ c ∈ ['=', '|'] := by
    cases op with
    | eq => exact ⟨_, _, rfl, by decide⟩
    | or => exact ⟨_, _, rfl, by decide⟩
  refine isExpr_infix first begins fun literals depth rest enough ends => ?_
  cases op with
  | eq =>
    refine yields_ahead_pair (by decide) (by simp) ?_
    refine (reaches_expectPair rfl (by decide) (by simp)).bind fun _ _ => ?_
    exact (second.reaches_right enough ends).bind fun _ _ => yields_pure ⟨_, rfl, .inr rfl⟩
  | or =>
    refine yields_ahead_pair (by decide) (by simp) ?_
    refine (reaches_expectPair rfl (by decide) (by simp)).bind fun _ _ => ?_
    exact (second.reaches_right enough ends).bind fun _ _ => yields_pure ⟨_, rfl, .inl rfl⟩

/-- An equals sign that stands alone is an operator of the lowest level. -/
theorem assign_ahead {joint : Bool} {behind : List Lexeme} (begins : BeginsExpr code)
    (lexed : Lexed (code ++ rest) behind) :
    operator? (⟨.punct '=', joint, .none⟩ :: behind) = none ∧
      assignAhead (⟨.punct '=', joint, .none⟩ :: behind) = true := by
  have noEquals : Ahead.signFrom ['='] behind = false :=
    begins.unsigned (s := "=") (by decide) (by decide) behind lexed
  have noAngle : Ahead.signFrom ['>'] behind = false :=
    begins.unsigned (s := ">") (by decide) (by decide) behind lexed
  exact ⟨by simp [operator?, operators, Ahead.sign, Ahead.signFrom, noEquals],
    by simp [assignAhead, Ahead.sign, Ahead.signFrom, noAngle]⟩

theorem isExpr_assign (first : IsOperand target) (second : IsOperand value) :
    IsExpr (target ++ [.punct '='] ++ value) := by
  refine isExpr_infix first ⟨_, _, rfl, by decide⟩ fun literals depth rest enough ends => ?_
  have apart : Apart (.punct '=') (value ++ rest) :=
    ⟨fun listed => absurd listed (by decide),
      fun _ => not_doubled_of_head (second.begins.head_ne (by decide))⟩
  refine yields_ahead_apart apart fun joint behind lexed => ?_
  obtain ⟨noOperator, assign⟩ := @assign_ahead value rest joint behind second.begins lexed
  rw [noOperator, assign]
  refine yields_take_bind apart ?_
  exact (second.reaches_right enough ends).bind fun _ _ => yields_pure ⟨_, rfl, .inl rfl⟩

structure IsCondition (code : Code) : Prop where
  reads : ∀ depth rest, code.length ≤ depth → EndsExpr false rest →
    ((nested depth).expr false).Yields (code ++ rest) Simple rest

theorem IsExpr.isCondition (expr : IsExpr code) : IsCondition code :=
  ⟨fun depth rest enough ends => expr.reads false depth rest enough ends⟩

theorem isCondition_let {pattern : Code} (known : IsPattern pattern) (operand : IsOperand value) :
    IsCondition (.plain "let" :: (pattern ++ .punct '=' :: value)) := by
  refine ⟨fun depth rest enough ends => ?_⟩
  simp only [List.length_cons, List.length_append] at enough
  obtain ⟨depth, rfl⟩ : ∃ below, depth = below + 1 := ⟨depth - 1, by omega⟩
  have apart : Apart (.punct '=') (value ++ rest) :=
    ⟨fun listed => absurd listed (by decide),
      fun _ => not_doubled_of_head (operand.begins.head_ne (by decide))⟩
  have stop {level : Nat} :
      (climbFrom (nested depth) false level .plain).Yields rest (· = .plain) rest :=
    yields_climbFrom_stop (.inl rfl) ends
  have assigned : (do
      discard take
      patterns (nested depth)
      expectSign "="
      discard <| (nested depth).climb false 5 (← (nested depth).operand false)
      return Shape.plain : Scan Shape).Yields
        (.plain "let" :: (pattern ++ .punct '=' :: (value ++ rest))) (· = .plain) rest := by
    refine yields_take_bind apart_plain ?_
    refine (known.patterns (by omega) (.inl (by simp [sign]))).bind fun _ _ => ?_
    refine (reaches_expectSign rfl apart).bind fun _ _ => ?_
    refine (operand.reads false depth rest (by omega) ends.endsOperand).bind fun shape plain => ?_
    subst plain
    obtain ⟨depth, rfl⟩ : ∃ below, depth = below + 1 := ⟨depth - 1, by omega⟩
    refine Yields.bind (Yields.discard (?_ : Yields _ rest (· = .plain) rest))
      fun _ _ => yields_pure rfl
    exact yields_climbFrom_stop (.inl rfl) ends
  have read : (operandFrom (nested depth) false).Yields
      (.plain "let" :: (pattern ++ .punct '=' :: (value ++ rest))) (· = .plain) rest := by
    have first : (atom (nested depth) false).Yields
        (.plain "let" :: (pattern ++ .punct '=' :: (value ++ rest))) (· = .plain) rest :=
      yields_ahead_cons fun joint behind lexed => assigned
    exact yields_operandFrom unsigned_word first (yields_steps_stop ends.endsOperand)
  rw [List.cons_append, List.append_assoc, List.cons_append]
  refine read.bind fun shape plain => ?_
  subst plain
  exact stop.mono fun _ same => .inl same

end EntityGen.Code
