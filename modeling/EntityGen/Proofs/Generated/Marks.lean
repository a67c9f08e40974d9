import EntityGen.Proofs.Generated.Nodes

/-! How a body is written, mark by mark. A literal, the path of a function, a type and a pattern
have no structure in a body, so that each of them is one mark whatever its tokens are. With these
tokens the marks of a body are its code. -/
namespace EntityGen

inductive Mark where
  /-- Code that counts as one whole. -/
  | operand (code : Code)
  | token (token : Token)
  deriving DecidableEq, Repr

namespace Mark

@[match_pattern] abbrev punct (c : Char) : Mark := token (.punct c)
@[match_pattern] abbrev word (x : Ident) : Mark := token (.word x)
@[match_pattern] abbrev plain (name : String) : Mark := word ⟨name, false⟩
@[match_pattern] abbrev opening (d : Delimiter) : Mark := token (.opening d)
@[match_pattern] abbrev closing (d : Delimiter) : Mark := token (.closing d)

def tokens : Mark → Code
  | operand code => code
  | token one => [one]

def code (marks : List Mark) : Code := marks.flatMap tokens

def within (d : Delimiter) (marks : List Mark) : List Mark := opening d :: marks ++ [closing d]

/-- Code of which each token is a mark. -/
def spelled (code : Code) : List Mark := code.map token

def names : List Ident → List Mark
  | [] => []
  | [x] => [word x]
  | x :: rest => word x :: punct ',' :: names rest

end Mark

def Expr.operandMarks (expr : Expr) (marks : List Mark) : List Mark :=
  if expr.isCompound then Mark.within .round marks else marks

mutual

def Expr.marks : Expr → List Mark
  | .literal code => [.operand code]
  | .name x => [.operand [.word x]]
  | .field base x => base.operandMarks base.marks ++ [.punct '.', .word x]
  | .call receiver method args =>
    receiver.operandMarks receiver.marks ++
      .punct '.' :: .word method :: Mark.within .round (Expr.marksOfAll args)
  | .invoke function args => .operand function :: Mark.within .round (Expr.marksOfAll args)
  | .construct type fields => .operand type :: Mark.within .curly (Mark.names fields)
  | .ref writable operand =>
    .punct '&' :: (if writable then [.plain "mut"] else []) ++ operand.operandMarks operand.marks
  | .not operand => .punct '!' :: operand.operandMarks operand.marks
  | .attempt operand => operand.operandMarks operand.marks ++ [.punct '?']
  | .binary op left right =>
    left.operandMarks left.marks ++ (Mark.spelled op.code ++ right.operandMarks right.marks)
  | .choice scrutinee arms =>
    .plain "match" ::
      (scrutinee.operandMarks scrutinee.marks ++ Mark.within .curly (Arm.marksOfAll arms))

def Expr.marksOfAll : List Expr → List Mark
  | [] => []
  | [expr] => expr.marks
  | expr :: rest => expr.marks ++ .punct ',' :: Expr.marksOfAll rest

def Arm.marks : Arm → List Mark
  | .mk pattern [.expr value] =>
    .operand pattern :: .punct '=' :: .punct '>' :: (value.marks ++ [.punct ','])
  | .mk pattern body =>
    .operand pattern :: .punct '=' :: .punct '>' :: Mark.within .curly (Body.marks .value body)

def Arm.marksOfAll : List Arm → List Mark
  | [] => []
  | arm :: rest => arm.marks ++ Arm.marksOfAll rest

def Cond.marks : Cond → List Mark
  | .holds expr => expr.marks
  | .binds binding value =>
    .plain "let" :: (Mark.spelled binding.code ++ .punct '=' :: value.marks)

/-- The marks of a statement; the role is that of the body if the statement is its last one. -/
def Stmt.marks (role : Role) : Stmt → List Mark
  | .decl writable x type value =>
    .plain "let" :: ((if writable then [.plain "mut"] else []) ++ .word x ::
      ((match type with | none => [] | some type => [.punct ':', .operand type]) ++
        ((match value with | none => [] | some value => .punct '=' :: value.marks) ++
          [.punct ';'])))
  | .assign target value => target.marks ++ .punct '=' :: (value.marks ++ [.punct ';'])
  | .expr expr => if role == .value then expr.marks else expr.marks ++ [.punct ';']
  | .each binding source body =>
    .plain "for" :: (Mark.spelled binding.code ++ .plain "in" :: (source.marks ++
      Mark.within .curly (Body.marks .plain body)))
  | .branch cond body otherwise =>
    .plain "if" :: (cond.marks ++ (Mark.within .curly (Body.marks .plain body) ++
      (match otherwise with
        | none => []
        | some body => .plain "else" :: Mark.within .curly (Body.marks .plain body))))
  | .ret value =>
    if role == .method then value.marks else .plain "return" :: (value.marks ++ [.punct ';'])

def Body.marks (role : Role) : List Stmt → List Mark
  | [] => []
  | [stmt] => stmt.marks role
  | stmt :: rest => stmt.marks .plain ++ Body.marks role rest

end

namespace Mark

variable {marks others : List Mark} {d : Delimiter} {written : Code}

@[simp] theorem code_nil : code [] = [] := rfl

@[simp] theorem code_operand : code (operand written :: marks) = written ++ code marks := rfl

@[simp] theorem code_token {token : Token} : code (.token token :: marks) = token :: code marks :=
  rfl

@[simp] theorem code_append : code (marks ++ others) = code marks ++ code others :=
  List.flatMap_append

@[simp] theorem code_within : code (within d marks) = Code.within d (code marks) := by
  simp [within, Code.within]

@[simp] theorem code_spelled : code (spelled written) = written := by
  induction written with
  | nil => rfl
  | cons token rest ih => exact congrArg (token :: ·) ih

theorem code_names : (fields : List Ident) →
    code (names fields) = Code.commas (fields.map fun x => [.word x])
  | [] => rfl
  | [_] => rfl
  | x :: y :: rest => by
    have later := code_names (y :: rest)
    simp only [Code.commas, List.map_cons] at later ⊢
    simp [names, later]

end Mark

theorem Expr.code_operandMarks {expr : Expr} (same : Mark.code expr.marks = expr.code) :
    Mark.code (expr.operandMarks expr.marks) = expr.asOperand expr.code := by
  unfold operandMarks asOperand
  split <;> simp [same]

mutual

theorem Expr.code_marks : (expr : Expr) → Mark.code expr.marks = expr.code
  | .literal code => by simp [Expr.marks, Expr.code]
  | .name x => rfl
  | .field base x => by simp [Expr.marks, Expr.code, Expr.code_operandMarks base.code_marks]
  | .call receiver method args => by
    simp [Expr.marks, Expr.code, Expr.code_operandMarks receiver.code_marks,
      Expr.code_marksOfAll args]
  | .invoke function args => by simp [Expr.marks, Expr.code, Expr.code_marksOfAll args]
  | .construct type fields => by simp [Expr.marks, Expr.code, Mark.code_names]
  | .ref writable operand => by
    have same := Expr.code_operandMarks operand.code_marks
    cases writable <;> simp [Expr.marks, Expr.code, same, Token.plain]
  | .not operand => by simp [Expr.marks, Expr.code, Expr.code_operandMarks operand.code_marks]
  | .attempt operand => by simp [Expr.marks, Expr.code, Expr.code_operandMarks operand.code_marks]
  | .binary op left right => by
    simp [Expr.marks, Expr.code, Expr.code_operandMarks left.code_marks,
      Expr.code_operandMarks right.code_marks]
  | .choice scrutinee arms => by
    simp [Expr.marks, Expr.code, Expr.code_operandMarks scrutinee.code_marks,
      Arm.code_marksOfAll arms, Token.plain]

theorem Expr.code_marksOfAll : (exprs : List Expr) →
    Mark.code (Expr.marksOfAll exprs) = Code.commas (Expr.codes exprs)
  | [] => rfl
  | [expr] => by simp [Expr.marksOfAll, Expr.codes, expr.code_marks, Code.commas]
  | expr :: other :: rest => by
    have later := Expr.code_marksOfAll (other :: rest)
    simp only [Code.commas, Expr.codes] at later ⊢
    simp [Expr.marksOfAll, expr.code_marks, later]

theorem Arm.code_marks : (arm : Arm) → Mark.code arm.marks = arm.code
  | .mk pattern body => by
    have same := Body.code_marks .value body
    by_cases single : ∃ value, body = [.expr value]
    · obtain ⟨value, rfl⟩ := single
      simp only [Body.marks, Body.code, Stmt.marks, Stmt.code, beq_self_eq_true, if_true] at same
      simp [Arm.marks, Arm.code, Code.sign, same]
    · have several : ∀ value, body = [.expr value] → False := fun value is => single ⟨value, is⟩
      rw [Arm.marks, Arm.code]
      · simp [Code.sign, same]
      · exact several
      · exact several

theorem Arm.code_marksOfAll : (arms : List Arm) → Mark.code (Arm.marksOfAll arms) = Arm.codes arms
  | [] => rfl
  | arm :: rest => by simp [Arm.marksOfAll, Arm.codes, arm.code_marks, Arm.code_marksOfAll rest]

theorem Cond.code_marks : (cond : Cond) → Mark.code cond.marks = cond.code
  | .holds expr => expr.code_marks
  | .binds binding value => by simp [Cond.marks, Cond.code, value.code_marks, Token.plain]

theorem Stmt.code_marks (role : Role) : (stmt : Stmt) → Mark.code (stmt.marks role) = stmt.code role
  | .decl writable x type none => by
    cases writable <;> cases type <;> simp [Stmt.marks, Stmt.code, Token.plain]
  | .decl writable x type (some value) => by
    have same := value.code_marks
    cases writable <;> cases type <;> simp [Stmt.marks, Stmt.code, Token.plain, same]
  | .assign target value => by simp [Stmt.marks, Stmt.code, target.code_marks, value.code_marks]
  | .expr expr => by
    have same := expr.code_marks
    cases role <;> simp [Stmt.marks, Stmt.code, same]
  | .each binding source body => by
    simp [Stmt.marks, Stmt.code, source.code_marks, Body.code_marks .plain body, Token.plain]
  | .branch cond body none => by
    simp [Stmt.marks, Stmt.code, cond.code_marks, Body.code_marks .plain body, Token.plain]
  | .branch cond body (some otherwise) => by
    simp [Stmt.marks, Stmt.code, cond.code_marks, Body.code_marks .plain body,
      Body.code_marks .plain otherwise, Token.plain]
  | .ret value => by
    have same := value.code_marks
    cases role <;> simp [Stmt.marks, Stmt.code, same, Token.plain]

theorem Body.code_marks (role : Role) : (body : List Stmt) →
    Mark.code (Body.marks role body) = Body.code role body
  | [] => rfl
  | [stmt] => stmt.code_marks role
  | stmt :: other :: rest => by
    simp [Body.marks, Body.code, stmt.code_marks .plain, Body.code_marks role (other :: rest)]

end

end EntityGen
