import EntityGen.Proofs.Generated.Marks

/-! A body read back from its marks. Calls, fields and `?` bind tighter than `&` and `!`, these
tighter than `==`, and this tighter than `||`. In the head of a condition, a loop or a choice a
brace opens what follows the head, so that no struct stands there. The number that a reader begins
with bounds how deep it goes; eight steps for each mark are enough. -/
namespace EntityGen

/-- What code stands for that counts as one whole: a single word is a name. -/
def Expr.ofCode : Code → Expr
  | [.word x] => .name x
  | code => .literal code

mutual

/-- An expression in which a literal that is a single word is taken for the name that is written
alike. -/
def Expr.named : Expr → Expr
  | .literal code => .ofCode code
  | .name x => .name x
  | .field base x => .field base.named x
  | .call receiver method args => .call receiver.named method (Expr.namedOfAll args)
  | .invoke function args => .invoke function (Expr.namedOfAll args)
  | .construct type fields => .construct type fields
  | .ref writable operand => .ref writable operand.named
  | .not operand => .not operand.named
  | .attempt operand => .attempt operand.named
  | .binary op left right => .binary op left.named right.named
  | .choice scrutinee arms => .choice scrutinee.named (Arm.namedOfAll arms)

def Expr.namedOfAll : List Expr → List Expr
  | [] => []
  | expr :: rest => expr.named :: Expr.namedOfAll rest

def Arm.named : Arm → Arm
  | .mk pattern body => .mk pattern (Body.named body)

def Arm.namedOfAll : List Arm → List Arm
  | [] => []
  | arm :: rest => arm.named :: Arm.namedOfAll rest

def Cond.named : Cond → Cond
  | .holds expr => .holds expr.named
  | .binds binding value => .binds binding value.named

def Stmt.named : Stmt → Stmt
  | .decl writable x type none => .decl writable x type none
  | .decl writable x type (some value) => .decl writable x type (some value.named)
  | .assign target value => .assign target.named value.named
  | .expr expr => .expr expr.named
  | .each binding source body => .each binding source.named (Body.named body)
  | .branch cond body none => .branch cond.named (Body.named body) none
  | .branch cond body (some otherwise) =>
    .branch cond.named (Body.named body) (some (Body.named otherwise))
  | .ret value => .ret value.named

def Body.named : List Stmt → List Stmt
  | [] => []
  | stmt :: rest => stmt.named :: Body.named rest

end

/-- The statement that an expression is at the end of a body. -/
def Role.last? : Role → Expr → Option Stmt
  | .method, last => some (.ret last)
  | .value, last => some (.expr last)
  | .plain, _ => none

namespace Parse

def expect (expected marks : List Mark) : Option (List Mark) :=
  if expected <+: marks then some (marks.drop expected.length) else none

def atEnd : List Mark → Bool
  | [] => true
  | .closing .curly :: _ => true
  | _ => false

def binding : List Mark → Option (Binding × List Mark)
  | .word x :: rest => some (.name x, rest)
  | .opening .round :: .word first :: .punct ',' :: .word second :: .closing .round :: rest =>
    some (.pair first second, rest)
  | marks => do
    match ← expect (Mark.spelled Code.present) marks with
    | .opening .round :: .word x :: .closing .round :: rest => some (.present x, rest)
    | _ => none

def fields : List Mark → Option (List Ident × List Mark)
  | .closing .curly :: rest => some ([], rest)
  | .word x :: .closing .curly :: rest => some ([x], rest)
  | .word x :: .punct ',' :: rest => do
    let (xs, rest) ← fields rest
    some (x :: xs, rest)
  | _ => none

/-- The name behind `let` and whether `mut` stands in front of it, which can be the name as well. -/
def declaredName : List Mark → Option (Bool × Ident × List Mark)
  | .plain "mut" :: .word x :: rest => some (true, x, rest)
  | .word x :: rest => some (false, x, rest)
  | _ => none

def declaredType : List Mark → Option (Option Code × List Mark)
  | .punct ':' :: .operand type :: rest => some (some type, rest)
  | .punct ':' :: _ => none
  | marks => some (none, marks)

/-- The statement that ends behind a choice, with a semicolon or without. -/
def completedChoice (role : Role) (value : Expr) : List Mark → Stmt × List Mark
  | .punct ';' :: rest => (.expr value, rest)
  | marks => ((if atEnd marks then role.last? value else none).getD (.expr value), marks)

mutual

/-- An expression. With `structs`, a brace behind an operand begins the fields of a struct. -/
def expr : Nat → Bool → List Mark → Option (Expr × List Mark)
  | 0, _, _ => none
  | n + 1, structs, marks => do
    let (first, rest) ← equality n structs marks
    disjunction n structs first rest

/-- What follows an expression by `||`. -/
def disjunction : Nat → Bool → Expr → List Mark → Option (Expr × List Mark)
  | 0, _, _, _ => none
  | n + 1, structs, left, marks =>
    match marks with
    | .punct '|' :: .punct '|' :: rest => do
      let (right, rest) ← equality n structs rest
      disjunction n structs (.binary .or left right) rest
    | _ => some (left, marks)

/-- An expression without `||`. Neither side of `==` has another one outside of brackets. -/
def equality : Nat → Bool → List Mark → Option (Expr × List Mark)
  | 0, _, _ => none
  | n + 1, structs, marks => do
    let (left, rest) ← unary n structs marks
    match rest with
    | .punct '=' :: .punct '=' :: rest =>
      let (right, rest) ← unary n structs rest
      some (.binary .eq left right, rest)
    | _ => some (left, rest)

def unary : Nat → Bool → List Mark → Option (Expr × List Mark)
  | 0, _, _ => none
  | n + 1, structs, marks =>
    match marks with
    | .punct '&' :: .plain "mut" :: rest => do
      let (operand, rest) ← unary n structs rest
      some (.ref true operand, rest)
    | .punct '&' :: rest => do
      let (operand, rest) ← unary n structs rest
      some (.ref false operand, rest)
    | .punct '!' :: rest => do
      let (operand, rest) ← unary n structs rest
      some (.not operand, rest)
    | _ => do
      let (first, rest) ← atom n structs marks
      suffixes n first rest

def atom : Nat → Bool → List Mark → Option (Expr × List Mark)
  | 0, _, _ => none
  | n + 1, structs, marks =>
    match marks with
    | .operand function :: .opening .round :: rest => do
      let (args, rest) ← args n rest
      some (.invoke function args, rest)
    | .operand code :: rest =>
      match structs, rest with
      | true, .opening .curly :: rest => do
        let (xs, rest) ← fields rest
        some (.construct code xs, rest)
      | _, _ => some (Expr.ofCode code, rest)
    | .opening .round :: rest => do
      let (inner, rest) ← expr n true rest
      let rest ← expect [.closing .round] rest
      some (inner, rest)
    | .plain "match" :: rest => do
      let (scrutinee, rest) ← expr n false rest
      let rest ← expect [.opening .curly] rest
      let (arms, rest) ← arms n rest
      some (.choice scrutinee arms, rest)
    | _ => none

def suffixes : Nat → Expr → List Mark → Option (Expr × List Mark)
  | 0, _, _ => none
  | n + 1, base, marks =>
    match marks with
    | .punct '.' :: .word method :: .opening .round :: rest => do
      let (args, rest) ← args n rest
      suffixes n (.call base method args) rest
    | .punct '.' :: .word x :: rest => suffixes n (.field base x) rest
    | .punct '?' :: rest => suffixes n (.attempt base) rest
    | _ => some (base, marks)

def args : Nat → List Mark → Option (List Expr × List Mark)
  | 0, _ => none
  | n + 1, marks =>
    match marks with
    | .closing .round :: rest => some ([], rest)
    | _ => do
      let (arg, rest) ← expr n true marks
      match rest with
      | .punct ',' :: rest =>
        let (later, rest) ← args n rest
        some (arg :: later, rest)
      | .closing .round :: rest => some ([arg], rest)
      | _ => none

def arms : Nat → List Mark → Option (List Arm × List Mark)
  | 0, _ => none
  | n + 1, marks =>
    match marks with
    | .closing .curly :: rest => some ([], rest)
    | .operand pattern :: .punct '=' :: .punct '>' :: rest => do
      let (body, rest) ← armBody n rest
      let (later, rest) ← arms n rest
      some (.mk pattern body :: later, rest)
    | _ => none

def armBody : Nat → List Mark → Option (Body × List Mark)
  | 0, _ => none
  | n + 1, marks =>
    match marks with
    | .opening .curly :: _ => braced n .value marks
    | _ => do
      let (value, rest) ← expr n true marks
      let rest ← expect [.punct ','] rest
      some ([.expr value], rest)

def braced : Nat → Role → List Mark → Option (Body × List Mark)
  | 0, _, _ => none
  | n + 1, role, marks => do
    let rest ← expect [.opening .curly] marks
    let (stmts, rest) ← body n role rest
    let rest ← expect [.closing .curly] rest
    some (stmts, rest)

def body : Nat → Role → List Mark → Option (Body × List Mark)
  | 0, _, _ => none
  | n + 1, role, marks =>
    if atEnd marks then some ([], marks) else do
      let (first, rest) ← stmt n role marks
      let (later, rest) ← body n role rest
      some (first :: later, rest)

def cond : Nat → List Mark → Option (Cond × List Mark)
  | 0, _ => none
  | n + 1, marks =>
    match marks with
    | .plain "let" :: rest => do
      let (bound, rest) ← binding rest
      let rest ← expect [.punct '='] rest
      let (value, rest) ← equality n false rest
      some (.binds bound value, rest)
    | _ => do
      let (value, rest) ← expr n false marks
      some (.holds value, rest)

def declaredValue : Nat → List Mark → Option (Option Expr × List Mark)
  | 0, _ => none
  | n + 1, marks =>
    match marks with
    | .punct '=' :: rest => do
      let (value, rest) ← expr n true rest
      some (some value, rest)
    | _ => some (none, marks)

/-- The statement that an expression begins. Only at the end of a body none follows. -/
def completed : Nat → Role → Expr → List Mark → Option (Stmt × List Mark)
  | 0, _, _, _ => none
  | n + 1, role, first, marks =>
    match marks with
    | .punct '=' :: rest => do
      let (value, rest) ← expr n true rest
      let rest ← expect [.punct ';'] rest
      some (.assign first value, rest)
    | .punct ';' :: rest => some (.expr first, rest)
    | _ => do
      let stmt ← if atEnd marks then role.last? first else none
      some (stmt, marks)

def stmt : Nat → Role → List Mark → Option (Stmt × List Mark)
  | 0, _, _ => none
  | n + 1, role, marks =>
    match marks with
    | .plain "let" :: rest => do
      let (isWritable, x, rest) ← declaredName rest
      let (type, rest) ← declaredType rest
      let (value, rest) ← declaredValue n rest
      let rest ← expect [.punct ';'] rest
      some (.decl isWritable x type value, rest)
    | .plain "for" :: rest => do
      let (bound, rest) ← binding rest
      let rest ← expect [.plain "in"] rest
      let (source, rest) ← expr n false rest
      let (body, rest) ← braced n .plain rest
      some (.each bound source body, rest)
    | .plain "if" :: rest => do
      let (cond, rest) ← cond n rest
      let (body, rest) ← braced n .plain rest
      match rest with
      | .plain "else" :: rest =>
        let (otherwise, rest) ← braced n .plain rest
        some (.branch cond body (some otherwise), rest)
      | _ => some (.branch cond body none, rest)
    | .plain "return" :: rest => do
      let (value, rest) ← expr n true rest
      let rest ← expect [.punct ';'] rest
      some (.ret value, rest)
    | .plain "match" :: _ => do
      let (choice, rest) ← atom n true marks
      some (completedChoice role choice rest)
    | _ => do
      let (value, rest) ← expr n true marks
      completed n role value rest

end

end Parse

/-- The body that marks are, if they are one. -/
def Body.read (role : Role) (marks : List Mark) : Option Body :=
  match Parse.body (8 * marks.length + 8) role marks with
  | some (body, []) => some body
  | _ => none

end EntityGen
