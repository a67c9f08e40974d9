import EntityGen.Token.Basic

/-! Types as they are declared. The forms that decide what a field holds have constructors of
their own: paths, parentheses, and the three forms that hide a type from analysis. All other
forms are kept in one: their tokens in reading order with the types that stand among them. -/
namespace EntityGen

mutual

inductive Ty where
  /-- A path without a qualified self; `leading` says that it begins with a double colon. -/
  | path (leading : Bool) (segments : List Segment)
  | paren (inner : Ty)
  /-- A group that has no written brackets. -/
  | group (inner : Ty)
  | inferred
  | implTrait (pieces : List Piece)
  /-- A call that expands to a type. -/
  | invocation (code : Code)
  | composite (pieces : List Piece)

inductive Segment where
  | mk (name : Ident) (args : Args)

inductive Args where
  | none
  /-- Arguments in angle brackets; `turbofish` and `trailing` tell of a double colon in front and
  of a comma at the end. -/
  | angle (turbofish : Bool) (args : List Arg) (trailing : Bool)

inductive Arg where
  | lifetime (text : String)
  | ty (ty : Ty)
  /-- A constant, an associated item or a bound. -/
  | other (pieces : List Piece)

/-- A part of a form that is not looked into: a token, or a type that stands in it. -/
inductive Piece where
  | token (token : Token)
  | ty (ty : Ty)

end

def Segment.name : Segment → Ident
  | mk name _ => name

def Segment.args : Segment → Args
  | mk _ args => args

def Segment.bare (name : Ident) : Segment := ⟨name, .none⟩

def Arg.isLifetime : Arg → Bool
  | lifetime _ => true
  | _ => false

/-- Lifetimes are written back first. A comma stands behind each argument that had one and between
any two, so that one stands at the end if it did so before or if a lifetime stood there. -/
def Arg.trailing (args : List Arg) (trailing : Bool) : Bool :=
  trailing || match args.getLast? with
    | some (.lifetime _) => args.any fun arg => !arg.isLifetime
    | _ => false

mutual

def Ty.code : Ty → Code
  | .path leading segments =>
    (if leading then Code.sign [':', ':'] else []) ++ Segment.codes segments
  | .paren inner => Code.within .round inner.code
  | .group inner => inner.code
  | .inferred => [.plain "_"]
  | .implTrait pieces => Piece.codes pieces
  | .invocation code => code
  | .composite pieces => Piece.codes pieces

def Segment.code : Segment → Code
  | .mk name args => .word name :: args.code

def Segment.codes : List Segment → Code
  | [] => []
  | [segment] => segment.code
  | segment :: rest => segment.code ++ Code.sign [':', ':'] ++ Segment.codes rest

def Args.code : Args → Code
  | .none => []
  | .angle turbofish args trailing =>
    (if turbofish then Code.sign [':', ':'] else []) ++ [.punct '<'] ++
      Code.commas (Arg.lifetimeCodes args ++ Arg.otherCodes args) ++
      (if Arg.trailing args trailing then [.punct ','] else []) ++ [.punct '>']

def Arg.code : Arg → Code
  | .lifetime text => [.lifetime text]
  | .ty ty => ty.code
  | .other pieces => Piece.codes pieces

def Arg.lifetimeCodes : List Arg → List Code
  | [] => []
  | .lifetime text :: rest => [.lifetime text] :: Arg.lifetimeCodes rest
  | _ :: rest => Arg.lifetimeCodes rest

def Arg.otherCodes : List Arg → List Code
  | [] => []
  | .lifetime _ :: rest => Arg.otherCodes rest
  | arg :: rest => arg.code :: Arg.otherCodes rest

def Piece.code : Piece → Code
  | .token token => [token]
  | .ty ty => ty.code

def Piece.codes : List Piece → Code
  | [] => []
  | piece :: rest => piece.code ++ Piece.codes rest

end

structure Path where
  leading : Bool
  segments : List Segment

def Path.ty (path : Path) : Ty := .path path.leading path.segments

def Path.code (path : Path) : Code := path.ty.code

/-- The parts of an argument, the types in it kept as such. -/
def Arg.pieces : Arg → List Piece
  | .lifetime text => [.token (.lifetime text)]
  | .ty inner => [.ty inner]
  | .other pieces => pieces

def Args.pieces : Args → List Piece
  | .none => []
  | .angle turbofish args trailing =>
    (if turbofish then Code.sign [':', ':'] else []).map .token ++ [.token (.punct '<')] ++
      ((args.map Arg.pieces).intersperse [.token (.punct ',')]).flatten ++
      (if trailing then [.token (.punct ',')] else []) ++ [.token (.punct '>')]

def Segment.pieces (segment : Segment) : List Piece :=
  .token (.word segment.name) :: segment.args.pieces

/-- A form of type whose contents cannot be told from its text. -/
inductive Hidden where
  | invocation
  | implTrait
  | inferred
  deriving DecidableEq, Repr

mutual

/-- The first hidden form in a type, in reading order and at any depth. -/
def Ty.hidden? : Ty → Option Hidden
  | .path _ segments => Segment.hiddenIn? segments
  | .paren inner => inner.hidden?
  | .group inner => inner.hidden?
  | .inferred => some .inferred
  | .implTrait _ => some .implTrait
  | .invocation _ => some .invocation
  | .composite pieces => Piece.hiddenIn? pieces

def Segment.hidden? : Segment → Option Hidden
  | .mk _ args => args.hidden?

def Segment.hiddenIn? : List Segment → Option Hidden
  | [] => none
  | segment :: rest => segment.hidden? <|> Segment.hiddenIn? rest

def Args.hidden? : Args → Option Hidden
  | .none => none
  | .angle _ args _ => Arg.hiddenIn? args

def Arg.hidden? : Arg → Option Hidden
  | .lifetime _ => none
  | .ty ty => ty.hidden?
  | .other pieces => Piece.hiddenIn? pieces

def Arg.hiddenIn? : List Arg → Option Hidden
  | [] => none
  | arg :: rest => arg.hidden? <|> Arg.hiddenIn? rest

def Piece.hidden? : Piece → Option Hidden
  | .token _ => none
  | .ty ty => ty.hidden?

def Piece.hiddenIn? : List Piece → Option Hidden
  | [] => none
  | piece :: rest => piece.hidden? <|> Piece.hiddenIn? rest

end

end EntityGen
