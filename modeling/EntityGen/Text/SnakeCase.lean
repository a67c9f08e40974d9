import EntityGen.Text.Alphanumeric
import EntityGen.Text.LetterCase

/-! Names in snake case. A text is cut into pieces at every character that is neither letter nor
number, a piece into words at its changes of case, and the words are written in lower case with
a low line between them. -/
namespace EntityGen.Text

/-- The case of the letters read so far in the current word. -/
inductive WordCase where
  | none
  | lower
  | upper
deriving DecidableEq, Repr

/-- Characters without case keep the case of the word they stand in. -/
def WordCase.next (current : WordCase) (c : Char) : WordCase :=
  if isLowercase c then .lower else if isUppercase c then .upper else current

/-- The nonempty stretches between the characters that satisfy `cut`. -/
def pieces (cut : Char → Bool) : List Char → List (List Char)
  | [] => []
  | c :: rest =>
    if cut c then pieces cut rest
    else match rest, pieces cut rest with
      | [], _ => [[c]]
      | d :: _, found => if cut d then [c] :: found else match found with
        | [] => [[c]]
        | word :: others => (c :: word) :: others

/-- The words of one piece. A word ends after a lower-case letter that an upper-case one follows,
and before the last of a run of upper-case letters that a lower-case one follows. `word` holds
the characters of the current word, latest first. -/
def wordsFrom (state : WordCase) (word : List Char) : List Char → List (List Char)
  | [] => []
  | [c] => [(c :: word).reverse]
  | c :: d :: rest =>
    if state.next c == .lower && isUppercase d then
      (c :: word).reverse :: wordsFrom .none [] (d :: rest)
    else if state == .upper && isUppercase c && isLowercase d then
      word.reverse :: wordsFrom .none [c] (d :: rest)
    else wordsFrom (state.next c) (c :: word) (d :: rest)

/-- A word in lower case; a sigma at its end takes its final form. -/
def lowerWord : List Char → List Char
  | [] => []
  | [c] => if c == 'Σ' then ['ς'] else toLowercase c
  | c :: rest => toLowercase c ++ lowerWord rest

def snakeCase (text : String) : String :=
  let words := (pieces (fun c => !isAlphanumeric c) text.toList).flatMap (wordsFrom .none [])
  String.ofList ((words.map lowerWord).intersperse ['_']).flatten

def upperFirst (text : String) : String :=
  match text.toList with
  | [] => text
  | c :: rest => String.ofList (toUppercase c ++ rest)

end EntityGen.Text
