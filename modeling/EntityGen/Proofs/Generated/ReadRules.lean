import EntityGen.Proofs.Generated.Reader

/-! What the reader of bodies does with each form: one rule for each way in which an expression, an
arm or a statement is written. A rule says what may follow, since an expression is read as far as it
goes. -/
namespace EntityGen.Parse

def starts : List Mark → Bool
  | .operand _ :: _ => true
  | .opening .round :: _ => true
  | .punct '&' :: _ => true
  | .punct '!' :: _ => true
  | .plain "match" :: _ => true
  | _ => false

def startsChoice : List Mark → Bool
  | .plain "match" :: _ => true
  | _ => false

/-- With these marks behind it, an operand is a call or a struct. -/
def opens (structs : Bool) : List Mark → Bool
  | .opening .round :: _ => true
  | .opening .curly :: _ => structs
  | _ => false

/-- A call, a field or `?` of what stands in front begins with these marks. -/
def suffixed : List Mark → Bool
  | .punct '.' :: _ => true
  | .punct '?' :: _ => true
  | _ => false

def equated : List Mark → Bool
  | .punct '=' :: .punct '=' :: _ => true
  | _ => false

def disjoined : List Mark → Bool
  | .punct '|' :: .punct '|' :: _ => true
  | _ => false

def otherwise : List Mark → Bool
  | .plain "else" :: _ => true
  | _ => false

structure OperandEnds (structs : Bool) (marks : List Mark) : Prop where
  opens : opens structs marks = false
  suffixed : suffixed marks = false

structure EqualityEnds (structs : Bool) (marks : List Mark) : Prop
    extends OperandEnds structs marks where
  equated : equated marks = false

structure ExprEnds (structs : Bool) (marks : List Mark) : Prop
    extends EqualityEnds structs marks where
  disjoined : disjoined marks = false

variable {n : Nat} {structs isWritable : Bool} {role : Role} {marks rest behind : List Mark}
  {code function pattern : Code} {x method : Ident} {xs : List Ident}
  {base first second operand value scrutinee choice : Expr} {as : List Expr} {arms : List Arm}
  {last one : Stmt} {stmts others : Body} {condition : Cond} {type : Option Code}
  {initial : Option Expr} {result : Option (Expr × List Mark)}

namespace ExprEnds

theorem closing (d : Delimiter) : ExprEnds structs (.closing d :: rest) := ⟨⟨⟨rfl, rfl⟩, rfl⟩, rfl⟩

theorem comma : ExprEnds structs (.punct ',' :: rest) := ⟨⟨⟨rfl, rfl⟩, rfl⟩, rfl⟩

theorem semicolon : ExprEnds structs (.punct ';' :: rest) := ⟨⟨⟨rfl, rfl⟩, rfl⟩, rfl⟩

/-- A head ends in front of a brace. -/
theorem brace : ExprEnds false (.opening .curly :: rest) := ⟨⟨⟨rfl, rfl⟩, rfl⟩, rfl⟩

theorem assignment (begins : starts rest) : ExprEnds structs (.punct '=' :: rest) := by
  refine ⟨⟨⟨rfl, rfl⟩, ?_⟩, rfl⟩
  unfold equated
  split
  next same => cases same; cases begins
  next => rfl

theorem of_atEnd (ends : atEnd marks) : ExprEnds structs marks := by
  unfold atEnd at ends
  split at ends
  next => exact ⟨⟨⟨rfl, rfl⟩, rfl⟩, rfl⟩
  next => exact closing .curly
  next => cases ends

end ExprEnds

theorem goesOn_of_starts (begins : starts marks) :
    atEnd marks = false ∧ otherwise marks = false := by
  constructor
  · unfold atEnd
    split
    next => cases begins
    next => cases begins
    next => rfl
  · unfold otherwise
    split
    next => cases begins
    next => rfl

theorem otherwise_of_atEnd (ends : atEnd rest) :
    otherwise rest = false := by
  unfold otherwise
  split
  next => cases ends
  next => rfl

@[simp] theorem expect_append (expected rest : List Mark) :
    expect expected (expected ++ rest) = some rest := by
  simp [expect]

@[simp] theorem expect_cons (mark : Mark) (rest : List Mark) :
    expect [mark] (mark :: rest) = some rest := expect_append [mark] rest

attribute [local simp] expr disjunction equality unary atom suffixes args arms armBody braced body
  cond declaredValue completed stmt

theorem expr_of_equality (read : equality n structs marks = some (first, rest))
    (more : disjunction n structs first rest = result) :
    expr (n + 1) structs marks = result := by
  simp [read, more]

theorem disjunction_or (read : equality n structs marks = some (second, rest))
    (more : disjunction n structs (.binary .or first second) rest = result) :
    disjunction (n + 1) structs first (.punct '|' :: .punct '|' :: marks) = result := by
  simp [read, more]

theorem disjunction_stop (stops : disjoined marks = false) :
    disjunction (n + 1) structs first marks = some (first, marks) := by
  unfold disjunction
  split
  next => cases stops
  next => rfl

theorem equality_of_unary (read : unary n structs marks = some (first, rest))
    (stops : equated rest = false) :
    equality (n + 1) structs marks = some (first, rest) := by
  unfold equality
  rw [read]
  simp only [Option.bind_eq_bind, Option.bind_some]
  split
  next => cases stops
  next => rfl

theorem equality_eq
    (read : unary n structs marks = some (first, .punct '=' :: .punct '=' :: rest))
    (later : unary n structs rest = some (second, behind)) :
    equality (n + 1) structs marks = some (.binary .eq first second, behind) := by
  simp [read, later]

theorem unary_ref (read : unary n structs marks = some (operand, rest)) (stands : starts marks) :
    unary (n + 1) structs (.punct '&' :: marks) = some (.ref false operand, rest) := by
  unfold unary
  split
  next same => cases same; cases stands
  next same => cases same; simp [read]
  next same => cases same
  next other _ => exact absurd rfl (other _)

theorem unary_ref_mut (read : unary n structs marks = some (operand, rest)) :
    unary (n + 1) structs (.punct '&' :: .plain "mut" :: marks) =
      some (.ref true operand, rest) := by
  simp [read]

theorem unary_not (read : unary n structs marks = some (operand, rest)) :
    unary (n + 1) structs (.punct '!' :: marks) = some (.not operand, rest) := by
  simp [read]

theorem unary_of_atom (read : atom n structs marks = some (first, rest)) :
    unary (n + 1) structs marks = suffixes n first rest := by
  unfold unary
  split
  iterate 3 next => cases n <;> simp [atom] at read
  next => simp [read]

theorem atom_invoke (read : args n marks = some (as, rest)) :
    atom (n + 1) structs (.operand function :: .opening .round :: marks) =
      some (.invoke function as, rest) := by
  simp [read]

theorem atom_construct (read : fields marks = some (xs, rest)) :
    atom (n + 1) true (.operand code :: .opening .curly :: marks) =
      some (.construct code xs, rest) := by
  simp [read]

theorem atom_operand (ends : opens structs rest = false) :
    atom (n + 1) structs (.operand code :: rest) = some (.ofCode code, rest) := by
  unfold atom
  split
  next same => cases same; cases ends
  next same =>
    obtain ⟨⟨⟩, rfl⟩ := List.cons.inj same
    split
    next => cases ends
    next => rfl
  next same => cases same
  next same => cases same
  next other _ _ => exact absurd rfl (other _ _)

theorem atom_brackets (read : expr n true marks = some (first, .closing .round :: rest)) :
    atom (n + 1) structs (.opening .round :: marks) = some (first, rest) := by
  simp [read]

theorem atom_choice
    (read : expr n false marks = some (scrutinee, .opening .curly :: rest))
    (later : Parse.arms n rest = some (arms, behind)) :
    atom (n + 1) structs (.plain "match" :: marks) = some (.choice scrutinee arms, behind) := by
  simp [read, later]

theorem suffixes_call (read : args n marks = some (as, rest)) :
    suffixes (n + 1) base (.punct '.' :: .word method :: .opening .round :: marks) =
      suffixes n (.call base method as) rest := by
  simp [read]

theorem suffixes_field (ends : opens structs marks = false) :
    suffixes (n + 1) base (.punct '.' :: .word x :: marks) = suffixes n (.field base x) marks := by
  conv => lhs; unfold suffixes
  split
  next same => cases same; cases ends
  next same => cases same; rfl
  next same => cases same
  next other _ => exact absurd rfl (other _ _)

theorem suffixes_attempt :
    suffixes (n + 1) base (.punct '?' :: marks) = suffixes n (.attempt base) marks := by
  rw [suffixes]

theorem suffixes_stop (ends : suffixed marks = false) :
    suffixes (n + 1) base marks = some (base, marks) := by
  unfold suffixes
  split
  iterate 3 next => cases ends
  next => rfl

theorem args_nil : args (n + 1) (.closing .round :: marks) = some ([], marks) := by rw [args]

theorem args_last (begins : starts marks)
    (read : expr n true marks = some (first, .closing .round :: rest)) :
    args (n + 1) marks = some ([first], rest) := by
  unfold args
  split
  next => cases begins
  next => simp [read]

theorem args_cons (begins : starts marks)
    (read : expr n true marks = some (first, .punct ',' :: rest))
    (later : args n rest = some (as, behind)) :
    args (n + 1) marks = some (first :: as, behind) := by
  unfold args
  split
  next => cases begins
  next => simp [read, later]

theorem fields_names : (xs : List Ident) → (rest : List Mark) →
    fields (Mark.names xs ++ .closing .curly :: rest) = some (xs, rest)
  | [], _ => rfl
  | [_], _ => rfl
  | x :: y :: xs, rest => by
    simp [Mark.names, fields, fields_names (y :: xs) rest]

theorem arms_nil : Parse.arms (n + 1) (.closing .curly :: marks) = some ([], marks) := by
  rw [Parse.arms]

theorem arms_cons (read : armBody n marks = some (stmts, rest))
    (later : Parse.arms n rest = some (arms, behind)) :
    Parse.arms (n + 1) (.operand pattern :: .punct '=' :: .punct '>' :: marks) =
      some (.mk pattern stmts :: arms, behind) := by
  simp [read, later]

theorem armBody_value (begins : starts marks)
    (read : expr n true marks = some (value, .punct ',' :: rest)) :
    armBody (n + 1) marks = some ([.expr value], rest) := by
  unfold armBody
  split
  next => cases begins
  next => simp [read]

theorem braced_of_body (read : body n role marks = some (stmts, .closing .curly :: rest)) :
    braced (n + 1) role (.opening .curly :: marks) = some (stmts, rest) := by
  simp [read]

theorem armBody_braced
    (read : braced n .value (.opening .curly :: marks) = some (stmts, rest)) :
    armBody (n + 1) (.opening .curly :: marks) = some (stmts, rest) := by
  rw [armBody, read]

theorem body_nil (ends : atEnd marks) : body (n + 1) role marks = some ([], marks) := by
  rw [body, if_pos ends]

theorem body_cons (goesOn : atEnd marks = false) (read : stmt n role marks = some (one, rest))
    (later : body n role rest = some (others, behind)) :
    body (n + 1) role marks = some (one :: others, behind) := by
  simp [goesOn, read, later]

@[simp] theorem binding_code (bound : Binding) (rest : List Mark) :
    binding (Mark.spelled bound.code ++ rest) = some (bound, rest) := by
  cases bound with
  | name x => rfl
  | pair first second => rfl
  | present x =>
    have written : Mark.spelled (Binding.present x).code ++ rest =
        Mark.spelled Code.present ++ .opening .round :: .word x :: .closing .round :: rest := by
      simp [Mark.spelled, Binding.code, Code.within]
    rw [written]
    unfold binding
    split
    next same => cases same
    next same => cases same
    next => simp

theorem cond_holds (begins : starts marks) (read : expr n false marks = some (value, rest)) :
    cond (n + 1) marks = some (.holds value, rest) := by
  unfold cond
  split
  next => cases begins
  next => simp [read]

theorem cond_binds (bound : Binding) (read : equality n false marks = some (value, rest)) :
    cond (n + 1) (.plain "let" :: (Mark.spelled bound.code ++ .punct '=' :: marks)) =
      some (.binds bound value, rest) := by
  simp [read]

theorem stmt_return (role : Role) (read : expr n true marks = some (value, .punct ';' :: rest)) :
    stmt (n + 1) role (.plain "return" :: marks) = some (.ret value, rest) := by
  simp [read]

theorem stmt_each (role : Role) (bound : Binding) (read : expr n false marks = some (value, rest))
    (later : braced n .plain rest = some (stmts, behind)) :
    stmt (n + 1) role (.plain "for" :: (Mark.spelled bound.code ++ .plain "in" :: marks)) =
      some (.each bound value stmts, behind) := by
  simp [read, later]

theorem stmt_branch (role : Role) (read : cond n marks = some (condition, rest))
    (later : braced n .plain rest = some (stmts, behind)) (ends : otherwise behind = false) :
    stmt (n + 1) role (.plain "if" :: marks) = some (.branch condition stmts none, behind) := by
  simp only [stmt, read, later, Option.bind_eq_bind, Option.bind_some]
  split
  next => cases ends
  next => rfl

theorem stmt_branch_else {ends : List Mark} (role : Role)
    (read : cond n marks = some (condition, rest))
    (later : braced n .plain rest = some (stmts, .plain "else" :: behind))
    (last : braced n .plain behind = some (others, ends)) :
    stmt (n + 1) role (.plain "if" :: marks) =
      some (.branch condition stmts (some others), ends) := by
  simp [read, later, last]

theorem declaredName_mut :
    declaredName (.plain "mut" :: .word x :: rest) = some (true, x, rest) := by
  rw [declaredName]

/-- A name without `mut` in front can be the word `mut` itself, if no name stands behind it. -/
theorem declaredName_word (ends : ∀ y behind, rest ≠ .word y :: behind) :
    declaredName (.word x :: rest) = some (false, x, rest) := by
  unfold declaredName
  split
  next same => exact absurd (List.cons.inj same).2 (ends _ _)
  next same => cases same; rfl
  next other => exact absurd rfl (other _ _)

theorem declaredType_operand : declaredType (.punct ':' :: .operand code :: rest) =
    some (some code, rest) := by
  rw [declaredType]

theorem declaredType_none (ends : ∀ behind, rest ≠ .punct ':' :: behind) :
    declaredType rest = some (none, rest) := by
  unfold declaredType
  split
  next => exact absurd rfl (ends _)
  next => exact absurd rfl (ends _)
  next => rfl

theorem declaredValue_some (read : expr n true marks = some (value, rest)) :
    declaredValue (n + 1) (.punct '=' :: marks) = some (some value, rest) := by
  simp [read]

theorem declaredValue_none (n : Nat) (rest : List Mark) :
    declaredValue (n + 1) (.punct ';' :: rest) = some (none, .punct ';' :: rest) := by
  rw [declaredValue]
  nofun

theorem stmt_decl {others : List Mark} (role : Role)
    (name : declaredName marks = some (isWritable, x, rest))
    (typed : declaredType rest = some (type, behind))
    (read : declaredValue n behind = some (initial, .punct ';' :: others)) :
    stmt (n + 1) role (.plain "let" :: marks) = some (.decl isWritable x type initial, others) := by
  simp [name, typed, read]

theorem stmt_choice (role : Role) (begins : startsChoice marks)
    (read : atom n true marks = some (choice, rest)) :
    stmt (n + 1) role marks = some (completedChoice role choice rest) := by
  unfold startsChoice at begins
  split at begins
  next => simp [read]
  next => cases begins

theorem stmt_of_expr (role : Role) (begins : starts marks) (simple : startsChoice marks = false)
    (read : expr n true marks = some (value, rest)) :
    stmt (n + 1) role marks = completed n role value rest := by
  unfold stmt
  split
  iterate 4 next => cases begins
  next => cases simple
  next => simp [read]

theorem completed_assign (read : expr n true marks = some (value, .punct ';' :: rest)) :
    completed (n + 1) role first (.punct '=' :: marks) = some (.assign first value, rest) := by
  simp [read]

theorem completed_expr :
    completed (n + 1) role first (.punct ';' :: rest) = some (.expr first, rest) := by
  rw [completed]

theorem completed_last (ends : atEnd marks) (isLast : role.last? first = some last) :
    completed (n + 1) role first marks = some (last, marks) := by
  unfold completed
  split
  iterate 2 next => cases ends
  next => simp [ends, isLast]

theorem completedChoice_last (ends : atEnd marks) (isLast : role.last? first = some last) :
    completedChoice role first marks = (last, marks) := by
  unfold completedChoice
  split
  next => cases ends
  next => simp [ends, isLast]

end EntityGen.Parse
