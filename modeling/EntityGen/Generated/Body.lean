import EntityGen.Token.Basic

/-! Bodies of generated methods. They are trees of statements and expressions, in which names of
functions, types and patterns that need no structure stand as code. `Body.code` writes a body;
brackets stand wherever an operand binds less tightly than what it is an operand of. -/
namespace EntityGen

inductive Binding where
  | name (name : Ident)
  | pair (first second : Ident)
  /-- The content of an option that is present. -/
  | present (name : Ident)
  deriving DecidableEq, Repr

inductive BinaryOp where
  | eq
  | or
  deriving DecidableEq, Repr

mutual

inductive Expr where
  | literal (code : Code)
  | name (name : Ident)
  | field (base : Expr) (name : Ident)
  | call (receiver : Expr) (method : Ident) (args : List Expr)
  /-- A call of a function that is not a method of a value. -/
  | invoke (function : Code) (args : List Expr)
  /-- A value of a struct, each field from the variable of its name. -/
  | construct (type : Code) (fields : List Ident)
  | ref (writable : Bool) (operand : Expr)
  | not (operand : Expr)
  /-- The content of an option; without one the method ends with none. -/
  | attempt (operand : Expr)
  | binary (op : BinaryOp) (left right : Expr)
  | choice (scrutinee : Expr) (arms : List Arm)

/-- An arm of a choice. An expression that stands last in its body is its value. -/
inductive Arm where
  | mk (pattern : Code) (body : List Stmt)

inductive Cond where
  | holds (expr : Expr)
  | binds (binding : Binding) (value : Expr)

inductive Stmt where
  | decl (writable : Bool) (name : Ident) (type : Option Code) (value : Option Expr)
  | assign (target value : Expr)
  | expr (expr : Expr)
  | each (binding : Binding) (source : Expr) (body : List Stmt)
  | branch (cond : Cond) (body : List Stmt) (otherwise : Option (List Stmt))
  | ret (value : Expr)

end

abbrev Body := List Stmt

/-- What the end of a body is for. -/
inductive Role where
  /-- The body of a method: a return at its end is written as its value. -/
  | method
  /-- The body of an arm: an expression at its end is its value. -/
  | value
  | plain
  deriving DecidableEq, Repr

namespace Arm

def value (pattern : Code) (value : Expr) : Arm := ⟨pattern, [.expr value]⟩

end Arm

namespace Expr

def borrow (operand : Expr) : Expr := ref false operand

/-- The expression has to stand in brackets as an operand. -/
def isCompound : Expr → Bool
  | ref .. | not _ | binary .. | choice .. => true
  | _ => false

def asOperand (expr : Expr) (code : Code) : Code :=
  if expr.isCompound then Code.within .round code else code

end Expr

/-- The constructor of an option with content. -/
def Code.present : Code := Code.rooted ["std", "option", "Option", "Some"]

def Binding.code : Binding → Code
  | .name x => [.word x]
  | .pair first second => Code.within .round [.word first, .punct ',', .word second]
  | .present x => Code.present ++ Code.within .round [.word x]

def BinaryOp.code : BinaryOp → Code
  | eq => Code.sign ['=', '=']
  | or => Code.sign ['|', '|']

mutual

def Expr.code : Expr → Code
  | .literal code => code
  | .name name => [.word name]
  | .field base name => base.asOperand base.code ++ [.punct '.', .word name]
  | .call receiver method args =>
    receiver.asOperand receiver.code ++ [.punct '.', .word method] ++
      Code.within .round (Code.commas (Expr.codes args))
  | .invoke function args => function ++ Code.within .round (Code.commas (Expr.codes args))
  | .construct type fields =>
    type ++ Code.within .curly (Code.commas (fields.map fun name => [.word name]))
  | .ref writable operand =>
    .punct '&' :: (if writable then [.plain "mut"] else []) ++ operand.asOperand operand.code
  | .not operand => .punct '!' :: operand.asOperand operand.code
  | .attempt operand => operand.asOperand operand.code ++ [.punct '?']
  | .binary op left right =>
    left.asOperand left.code ++ op.code ++ right.asOperand right.code
  | .choice scrutinee arms =>
    .plain "match" :: scrutinee.asOperand scrutinee.code ++ Code.within .curly (Arm.codes arms)

def Expr.codes : List Expr → List Code
  | [] => []
  | expr :: rest => expr.code :: Expr.codes rest

def Arm.code : Arm → Code
  | .mk pattern [.expr value] => pattern ++ Code.sign ['=', '>'] ++ value.code ++ [.punct ',']
  | .mk pattern body =>
    pattern ++ Code.sign ['=', '>'] ++ Code.within .curly (Body.code .value body)

def Arm.codes : List Arm → Code
  | [] => []
  | arm :: rest => arm.code ++ Arm.codes rest

def Cond.code : Cond → Code
  | .holds expr => expr.code
  | .binds binding value => .plain "let" :: binding.code ++ [.punct '='] ++ value.code

/-- A statement in a body; the role is that of the body if the statement is its last one. -/
def Stmt.code (role : Role) : Stmt → Code
  | .decl writable name type value =>
    .plain "let" :: (if writable then [.plain "mut"] else []) ++ [.word name] ++
      (match type with | none => [] | some type => .punct ':' :: type) ++
      (match value with | none => [] | some value => .punct '=' :: value.code) ++ [.punct ';']
  | .assign target value => target.code ++ [.punct '='] ++ value.code ++ [.punct ';']
  | .expr expr => if role == .value then expr.code else expr.code ++ [.punct ';']
  | .each binding source body =>
    .plain "for" :: binding.code ++ [.plain "in"] ++ source.code ++
      Code.within .curly (Body.code .plain body)
  | .branch cond body otherwise =>
    .plain "if" :: cond.code ++ Code.within .curly (Body.code .plain body) ++
      (match otherwise with
        | none => []
        | some body => .plain "else" :: Code.within .curly (Body.code .plain body))
  | .ret value =>
    if role == .method then value.code else .plain "return" :: value.code ++ [.punct ';']

def Body.code (role : Role) : List Stmt → Code
  | [] => []
  | [stmt] => stmt.code role
  | stmt :: rest => stmt.code .plain ++ Body.code role rest

end

end EntityGen
