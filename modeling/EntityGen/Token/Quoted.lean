import EntityGen.Text.Identifier
import EntityGen.Text.Printable

/-! Quoted texts. A text between quotation marks spells some characters by escapes, a raw one
none. `quote` writes a text, `read` reads all forms of quoted text that stand in code, and
`value?` is the text that a string literal stands for. -/
namespace EntityGen.Quoted

def hexDigit? (c : Char) : Option Nat :=
  if '0' ≤ c && c ≤ '9' then some (c.toNat - 48)
  else if 'a' ≤ c && c ≤ 'f' then some (c.toNat - 87)
  else if 'A' ≤ c && c ≤ 'F' then some (c.toNat - 55)
  else none

def byNumber (c : Char) : List Char :=
  ['\\', 'u', '\x7b'] ++ Nat.toDigits 16 c.toNat ++ ['\x7d']

/-- One character between quotation marks; `next` is the one behind it. -/
def escape (c : Char) (next : Option Char) : List Char :=
  if c == '\x00' then
    if next.any fun d => '0' ≤ d && d ≤ '7' then ['\\', 'x', '0', '0'] else ['\\', '0']
  else if c == '\t' then ['\\', 't']
  else if c == '\n' then ['\\', 'n']
  else if c == '\r' then ['\\', 'r']
  else if c == '"' || c == '\\' then ['\\', c]
  else if Text.isPrintable c then [c]
  else byNumber c

def escapeAll : List Char → List Char
  | [] => []
  | c :: rest => escape c rest.head? ++ escapeAll rest

def quote (text : String) : String :=
  String.ofList ('"' :: escapeAll text.toList ++ ['"'])

/-- What may stand between the quotation marks. -/
structure Form where
  /-- Characters and escapes by number are those of text, not bytes. -/
  unicode : Bool
  /-- Escapes by two digits reach all bytes. -/
  wide : Bool
  /-- The character with code zero is admitted. -/
  zero : Bool
deriving DecidableEq, Repr

def Form.text : Form := ⟨true, false, true⟩
def Form.bytes : Form := ⟨false, true, true⟩
/-- Text that ends at its first zero. -/
def Form.terminated : Form := ⟨true, true, false⟩

/-- What the reader is in the middle of. -/
inductive State where
  | plain
  /-- Behind a backslash. -/
  | escaped
  /-- Behind `\x` and perhaps one digit. -/
  | byte (digit : Option Nat)
  /-- Behind `\u` and before its opening brace. -/
  | brace
  /-- Behind the brace and some digits. -/
  | number (digits value : Nat)
  /-- Behind a backslash at the end of a line, where blanks are skipped. -/
  | blanks
  /-- Behind a carriage return, which only a line feed follows; `skipping` as in `blanks`. -/
  | carriage (skipping : Bool)
deriving DecidableEq, Repr

def simpleEscape? (form : Form) (c : Char) : Option Char :=
  match c with
  | 'n' => some '\n'
  | 'r' => some '\r'
  | 't' => some '\t'
  | '\\' => some '\\'
  | '\x27' => some '\x27'
  | '"' => some '"'
  | '0' => if form.zero then some '\x00' else none
  | _ => none

/-- What one character does: it ends the text, or adds characters to it and moves on. -/
inductive Move where
  | done
  | goOn (add : List Char) (state : State)
  | refuse

def plainMove (form : Form) (c : Char) : Move :=
  if c == '"' then .done
  else if c == '\\' then .goOn [] .escaped
  else if c == '\r' then .goOn [] (.carriage false)
  else if (c == '\x00' && !form.zero) || (!form.unicode && 0x80 ≤ c.toNat) then .refuse
  else .goOn [c] .plain

def move (form : Form) (state : State) (c : Char) : Move :=
  match state with
  | .plain => plainMove form c
  | .escaped =>
    if c == 'x' then .goOn [] (.byte none)
    else if c == 'u' && form.unicode then .goOn [] .brace
    else if c == '\n' then .goOn [] .blanks
    else if c == '\r' then .goOn [] (.carriage true)
    else match simpleEscape? form c with
      | some d => .goOn [d] .plain
      | none => .refuse
  | .byte none =>
    match hexDigit? c with
    | some digit => if digit < 8 || form.wide then .goOn [] (.byte (some digit)) else .refuse
    | none => .refuse
  | .byte (some high) =>
    match hexDigit? c with
    | some low =>
      if 16 * high + low == 0 && !form.zero then .refuse
      else .goOn [Char.ofNat (16 * high + low)] .plain
    | none => .refuse
  | .brace => if c == '\x7b' then .goOn [] (.number 0 0) else .refuse
  | .number digits value =>
    if c == '_' && 0 < digits then .goOn [] (.number digits value)
    else if c == '\x7d' && 0 < digits then
      if value.isValidChar && (value != 0 || form.zero) then .goOn [Char.ofNat value] .plain
      else .refuse
    else match hexDigit? c with
      | some digit =>
        if digits == 6 then .refuse else .goOn [] (.number (digits + 1) (16 * value + digit))
      | none => .refuse
  | .blanks =>
    if c == ' ' || c == '\t' || c == '\n' then .goOn [] .blanks
    else if c == '\r' then .goOn [] (.carriage true)
    else plainMove form c
  | .carriage skipping =>
    if c != '\n' then .refuse
    else if skipping then .goOn [] .blanks
    else .goOn ['\n'] .plain

/-- The text up to its closing quotation mark, and what stands behind the mark. -/
def readFrom (form : Form) : State → List Char → Option (List Char × List Char)
  | _, [] => none
  | state, c :: rest =>
    match move form state c with
    | .done => some ([], rest)
    | .refuse => none
    | .goOn add state => (readFrom form state rest).map fun (text, rest) => (add ++ text, rest)

def read (form : Form) (source : List Char) : Option (List Char × List Char) :=
  readFrom form .plain source

def readRaw (form : Form) (hashes : Nat) : List Char → Option (List Char × List Char)
  | [] => none
  | c :: rest =>
    if c == '"' && rest.take hashes == List.replicate hashes '#' then
      some ([], rest.drop hashes)
    else if c == '\r' && rest.head? != some '\n' then none
    else if (c == '\x00' && !form.zero) || (!form.unicode && 0x80 ≤ c.toNat) then none
    else (readRaw form hashes rest).map fun (text, rest) => (c :: text, rest)

/-- A raw text from its marks on. -/
def readMarked (form : Form) (source : List Char) : Option (List Char × List Char) :=
  let hashes := (source.takeWhile (· == '#')).length
  match source.drop hashes with
  | '"' :: rest => if hashes ≤ 255 then readRaw form hashes rest else none
  | _ => none

/-- The text that a string literal stands for. A suffix of the literal does not count. -/
def value? (literal : String) : Option String :=
  match literal.toList with
  | '"' :: rest => (read .text rest).map fun (text, _) => String.ofList text
  | 'r' :: rest => (readMarked .text rest).map fun (text, _) => String.ofList text
  | _ => none

end EntityGen.Quoted
