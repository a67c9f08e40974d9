import EntityGen.Grammar.Source
import EntityGen.Naming
import EntityGen.Proofs.Token.Scanning

/-! The words of a text. Whatever is read from a text, its words are spelled as identifiers and its
brackets are balanced, so that an identifier is read only where it is all that stands there. -/
namespace EntityGen

theorem isIdentifierText_ofList {c : Char} {rest : List Char} (start : Text.isIdentifierStart c)
    (later : ∀ d ∈ rest, Text.isIdentifierContinue d) :
    isIdentifierText (String.ofList (c :: rest)) := by
  rw [isIdentifierText, String.toList_ofList, Bool.and_eq_true, List.all_eq_true]
  exact ⟨start, later⟩

def Lexeme.Spelled (lexemes : List Lexeme) : Prop :=
  ∀ lexeme ∈ lexemes, ∀ x, lexeme.token = .word x → isIdentifierText x.name

namespace Lexer

variable {source rest : List Char} {x : Ident}

theorem isIdentifierText_of_word? {name : List Char} (found : word? source = some (name, rest)) :
    isIdentifierText (String.ofList name) := by
  unfold word? at found
  split at found
  next => cases found
  next c later =>
    split at found
    next start =>
      obtain ⟨rfl, -⟩ := Prod.mk.inj (Option.some.inj found)
      exact isIdentifierText_ofList start fun d member => List.all_eq_true.mp List.all_takeWhile d member
    next => cases found

theorem isIdentifierText_of_ident? (found : ident? source = some (x, rest)) :
    isIdentifierText x.name := by
  unfold ident? at found
  split at found
  next =>
    obtain ⟨⟨name, _⟩, word, same⟩ := Option.map_eq_some_iff.mp found
    obtain ⟨rfl, -⟩ := Prod.mk.inj same
    exact isIdentifierText_of_word? word
  next =>
    split at found
    next => cases found
    next name _ word =>
      dsimp only at found
      split at found
      next => cases found
      next =>
        obtain ⟨rfl, -⟩ := Prod.mk.inj (Option.some.inj found)
        exact isIdentifierText_of_word? word

theorem isIdentifierText_of_leaf? {joint : Bool} (found : leaf? source = some (.word x, joint, rest)) :
    isIdentifierText x.name := by
  unfold leaf? at found
  split at found
  next => cases found
  next =>
    split at found
    next => cases found
    next =>
      split at found
      next =>
        split at found
        next =>
          obtain ⟨_, -, same⟩ := Option.map_eq_some_iff.mp found
          cases same
        next => cases found
      next =>
        split at found
        next => cases found
        next =>
          obtain ⟨⟨name, _⟩, word, same⟩ := Option.map_eq_some_iff.mp found
          cases same
          exact isIdentifierText_of_ident? word

/-- What holds of no tokens, and still holds with one more token or documentation comment in front,
holds of all tokens that are read within the brackets `inside`. -/
theorem tokensFrom_induction {motive : List Delimiter → List Lexeme → Prop} (nil : motive [] [])
    (doc : ∀ text inner pos inside lexemes, motive inside lexemes →
      motive inside ((docTokens text inner).map (⟨·, false, pos⟩) ++ lexemes))
    (opening : ∀ d pos inside lexemes, motive (d :: inside) lexemes →
      motive inside (⟨.opening d, false, pos⟩ :: lexemes))
    (closing : ∀ d pos inside lexemes, motive inside lexemes →
      motive (d :: inside) (⟨.closing d, false, pos⟩ :: lexemes))
    (leaf : ∀ source token joint behind pos inside lexemes,
      leaf? source = some (token, joint, behind) → motive inside lexemes →
      motive inside (⟨token, joint, pos⟩ :: lexemes))
    {fuel : Nat} {inside : List Delimiter} {pos : Pos} {source : List Char}
    {lexemes : List Lexeme} (read : tokensFrom fuel inside pos source = some lexemes) :
    motive inside lexemes := by
  induction fuel generalizing inside pos source lexemes with
  | zero => cases read
  | succ fuel ih =>
    unfold tokensFrom at read
    dsimp only at read
    split at read
    next =>
      split at read
      next ended =>
        cases read
        rw [List.isEmpty_iff.mp ended]
        exact nil
      next => cases read
    next c others _ =>
      split at read
      next text inner behind _ =>
        split at read
        next =>
          obtain ⟨later, behind, rfl⟩ := Option.map_eq_some_iff.mp read
          exact doc _ _ _ _ _ (ih behind)
        next => cases read
      next =>
        split at read
        next =>
          obtain ⟨later, behind, rfl⟩ := Option.map_eq_some_iff.mp read
          exact opening _ _ _ _ (ih behind)
        next d _ _ =>
          split at read
          next innermost =>
            obtain ⟨later, behind, rfl⟩ := Option.map_eq_some_iff.mp read
            obtain ⟨outer, rfl⟩ := List.head?_eq_some_iff.mp (eq_of_beq innermost)
            exact closing _ _ _ _ (ih behind)
          next => cases read
        next =>
          split at read
          next here =>
            obtain ⟨later, behind, rfl⟩ := Option.map_eq_some_iff.mp read
            exact leaf _ _ _ _ _ _ _ here (ih behind)
          next => cases read

theorem spelled_docTokens (text : List Char) (inner : Bool) (pos : Pos) :
    Lexeme.Spelled ((docTokens text inner).map (⟨·, false, pos⟩)) := by
  intro lexeme member x same
  obtain ⟨token, inside, rfl⟩ := List.mem_map.mp member
  obtain rfl : token = .word x := same
  have named : x = ⟨"doc", false⟩ := by
    cases inner <;> simpa [docTokens, Code.within, Token.plain] using inside
  rw [named]
  decide

theorem spelled_tokens? {text : String} {lexemes : List Lexeme} (read : tokens? text = some lexemes) :
    Lexeme.Spelled lexemes := by
  refine tokensFrom_induction (motive := fun _ lexemes => Lexeme.Spelled lexemes) nofun
    (fun text inner pos _ _ later =>
      List.forall_mem_append.mpr ⟨spelled_docTokens text inner pos, later⟩)
    (fun _ _ _ _ later => List.forall_mem_cons.mpr ⟨nofun, later⟩)
    (fun _ _ _ _ later => List.forall_mem_cons.mpr ⟨nofun, later⟩) ?_ read
  intro source token joint behind pos _ _ leaf later
  refine List.forall_mem_cons.mpr ⟨?_, later⟩
  rintro x rfl
  exact isIdentifierText_of_leaf? leaf

/-- A token that is read as a leaf is no bracket. -/
theorem length_of_leaf? {joint : Bool} {token : Token}
    (found : leaf? source = some (token, joint, rest)) (depth : Nat) (pos : Pos)
    (lexemes : List Lexeme) :
    Ahead.length depth (⟨token, joint, pos⟩ :: lexemes) = Ahead.length depth lexemes + 1 := by
  unfold leaf? at found
  split at found
  next => cases found; rfl
  next =>
    split at found
    next => cases found
    next =>
      split at found
      next =>
        split at found
        next =>
          obtain ⟨_, -, same⟩ := Option.map_eq_some_iff.mp found
          cases same
          rfl
        next => cases found; rfl
      next =>
        split at found
        next => cases found
        next =>
          obtain ⟨_, -, same⟩ := Option.map_eq_some_iff.mp found
          cases same
          rfl

/-- Within the brackets of a text only those are closed that were opened there. -/
theorem length_tokens? {text : String} {lexemes : List Lexeme} (read : tokens? text = some lexemes) :
    Ahead.length 0 lexemes = lexemes.length := by
  refine tokensFrom_induction (motive := fun inside lexemes =>
    Ahead.length inside.length lexemes = lexemes.length) rfl ?_ ?_ ?_ ?_ read
  · intro text inner pos inside lexemes later
    cases inner <;> simp [docTokens, Code.within, Token.plain, Ahead.length, later]
  · intro d pos inside lexemes later
    simpa [Ahead.length] using later
  · intro d pos inside lexemes later
    simpa [Ahead.length] using later
  · intro source token joint behind pos inside lexemes leaf later
    rw [length_of_leaf? leaf, later]
    rfl

/-- A word with an end behind it is the last one of its text. -/
theorem eq_nil_of_finished {text : String} {lexeme : Lexeme} {lexemes : List Lexeme} {x : Ident}
    (read : tokens? text = some (lexeme :: lexemes)) (word : lexeme.token = .word x)
    (ended : Ahead.finished lexemes) : lexemes = [] := by
  have balanced := length_tokens? read
  obtain ⟨_, joint, pos⟩ := lexeme
  obtain rfl := word
  match lexemes with
  | [] => rfl
  | ⟨.closing _, _, _⟩ :: later => simp [Ahead.length] at balanced
  | ⟨.word _, _, _⟩ :: _ | ⟨.lifetime _, _, _⟩ :: _ | ⟨.punct _, _, _⟩ :: _
  | ⟨.literal _, _, _⟩ :: _ | ⟨.opening _, _, _⟩ :: _ => cases ended

end Lexer

/-- The text is the identifier, which is no keyword, and nothing else. -/
def Ident.Fills (x : Ident) (text : String) : Prop :=
  x.isKeyword = false ∧ ∃ lexeme, Lexer.tokens? text = some [lexeme] ∧ lexeme.token = .word x

theorem Ident.ofText?_eq_some {text : String} {x : Ident} :
    Ident.ofText? text = some x ↔ x.Fills text := by
  constructor
  · intro read
    obtain ⟨lexemes, tokens, read⟩ := Option.bind_eq_some_iff.mp read
    obtain ⟨after, reads, ended⟩ := readAll_eq_ok.mp (ok_of_toOption read)
    obtain ⟨free, word⟩ := Scan.reads_ident.mp reads
    obtain ⟨lexeme, token, passes⟩ := Scan.reads_anyWord.mp word
    obtain rfl : lexemes = lexeme :: after.rest := passes.rest
    exact ⟨free, lexeme, by rw [tokens, Lexer.eq_nil_of_finished tokens token ended], token⟩
  · rintro ⟨free, lexeme, tokens, token⟩
    have read : readAll (fun _ => Scan.ident) [lexeme] = .ok x :=
      readAll_eq_ok.mpr ⟨⟨[], [.token lexeme.token]⟩,
        Scan.reads_ident.mpr ⟨free, Scan.reads_anyWord.mpr ⟨lexeme, token, rfl, rfl⟩⟩, rfl⟩
    rw [Ident.ofText?, readText?, tokens]
    show (readAll _ [lexeme]).toOption = some x
    rw [read]
    rfl

/-- An identifier that is read from a text is spelled as one and is no keyword. -/
theorem Ident.of_ofText? {text : String} {x : Ident} (read : Ident.ofText? text = some x) :
    isIdentifierText x.name ∧ x.isKeyword = false := by
  obtain ⟨free, lexeme, tokens, word⟩ := Ident.ofText?_eq_some.mp read
  exact ⟨Lexer.spelled_tokens? tokens lexeme List.mem_cons_self x word, free⟩

end EntityGen
