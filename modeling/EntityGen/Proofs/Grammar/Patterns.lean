import EntityGen.Generated.Body
import EntityGen.Proofs.Grammar.Types

/-! Patterns that are read wherever they stand. -/
namespace EntityGen

def Binding.words : Binding → List Ident
  | .name x | .present x => [x]
  | .pair first second => [first, second]

namespace Code

def EndsPattern (rest : Code) : Prop :=
  (∀ token ∈ rest.head?, token ∈ sign [',', '='] ++
      [.closing .round, .closing .square, .closing .curly, .plain "in"]) ∨
    ∃ type, BeginsType type ∧ rest = .punct ':' :: type

variable {rest type code : Code} {codes : List Code} {x : Ident}

/-- No path goes on at the colon in front of a type. -/
theorem BeginsType.unsigned_colons (begins : BeginsType type) :
    Scan.Unsigned "::" (.punct ':' :: type) := by
  rcases begins with ⟨x, later, rfl, -⟩ | ⟨x, later, rfl⟩ | ⟨c, later, rfl, listed⟩
  · exact Scan.unsigned_of_second rfl nofun
  · intro lexemes lexed
    rw [lexed.eq_lexemes (.inl (by decide))]
    rfl
  · refine Scan.unsigned_of_second rfl fun same => ?_
    rw [Token.punct.inj (Option.some.inj same)] at listed
    exact absurd listed (by decide)

theorem EndsPattern.unsigned (ends : EndsPattern rest) {s : String} (written : s ≠ "")
    (other : ∀ c ∈ s.toList.head?, c ∉ [',', '=', ':']) : Scan.Unsigned s rest := by
  refine Scan.unsigned_of_head written fun c head same => other c head ?_
  rcases ends with listed | ⟨type, -, rfl⟩
  · have inside := listed _ same
    simp only [sign, Token.plain, List.map_cons, List.map_nil, List.cons_append, List.nil_append,
      List.mem_cons, Token.punct.injEq, reduceCtorEq, List.not_mem_nil, or_false] at inside
    rcases inside with rfl | rfl <;> decide
  · simp [← Token.punct.inj (Option.some.inj same)]

theorem EndsPattern.unsigned_colons (ends : EndsPattern rest) : Scan.Unsigned "::" rest := by
  rcases ends with listed | ⟨type, begins, rfl⟩
  · refine Scan.unsigned_of_head (by decide) fun c head same => ?_
    obtain rfl : ':' = c := Option.some.inj head
    exact absurd (listed _ same) (by decide)
  · exact begins.unsigned_colons

theorem EndsPattern.opening (ends : EndsPattern rest) {lexemes : List Lexeme}
    (lexed : rest.Lexed lexemes) (d : Delimiter) : Ahead.opening d lexemes = false := by
  obtain ⟨left, -, -, rfl⟩ := lexed
  match rest with
  | .opening e :: _ =>
    rcases ends with listed | ⟨type, -, same⟩
    · exact absurd (listed _ rfl) (by simp [sign, Token.plain])
    · cases same
  | [] | .closing _ :: _ | .word _ :: _ | .punct _ :: _ | .literal _ :: _ | .lifetime _ :: _ => rfl

open Rules Scan

def BeginsPattern (code : Code) : Prop :=
  ∃ token later, code = token :: later ∧ ((∃ x, token = .word x ∧ x ≠ ⟨"else", false⟩) ∨
    token = .opening .round ∨ token = .punct ':')

structure IsPattern (code : Code) : Prop where
  begins : BeginsPattern code
  reads : ∀ depth rest, code.length ≤ depth → EndsPattern rest →
    (nested depth).pattern.Reaches (code ++ rest) rest

theorem BeginsPattern.not_ended (begins : BeginsPattern code) : ¬Ended (code ++ rest) := by
  obtain ⟨token, later, rfl, kind⟩ := begins
  intro ended
  obtain ⟨d, rfl⟩ := ended _ rfl
  rcases kind with ⟨x, same, -⟩ | same | same <;> cases same

theorem BeginsPattern.unsigned (begins : BeginsPattern code) {s : String} (written : s ≠ "")
    (other : ∀ c ∈ s.toList.head?, c ≠ ':') : Unsigned s (code ++ rest) := by
  refine unsigned_of_head written fun c head same => other c head ?_
  obtain ⟨token, later, rfl, kind⟩ := begins
  obtain rfl : token = .punct c := Option.some.inj same
  rcases kind with ⟨x, same, -⟩ | same | same
  · cases same
  · cases same
  · exact Token.punct.inj same

theorem isPattern_of_form (begins : BeginsPattern code)
    (form : ∀ depth rest, code.length ≤ depth + 1 → EndsPattern rest →
      (onePattern (nested depth)).Reaches (code ++ rest) rest) : IsPattern code where
  begins := begins
  reads depth rest enough ends := by
    obtain ⟨token, later, rfl, -⟩ := begins
    cases depth with
    | zero => simp at enough
    | succ depth => exact form depth rest enough ends

theorem reaches_namePattern {g : Rules} (free : x.isKeyword = false) {mark : Code}
    (marks : mark = [] ∨ mark = [.plain "mut"]) (ends : EndsPattern rest) :
    (namePattern g).Reaches (mark ++ .word x :: rest) rest := by
  have unlike {name : String} (keyword : keywords.contains name = true) :
      Unworded name (.word x :: rest) := by
    intro same
    obtain rfl : x = ⟨name, false⟩ := Token.word.inj (Option.some.inj same)
    rw [Ident.isKeyword, Bool.not_false, Bool.true_and, keyword] at free
    cases free
  have named : (do
      if !(← optionalWord "self") then discard ident
      if ← optionalSign "@" then g.pattern : Scan Unit).Reaches (.word x :: rest) rest := by
    refine (yields_optionalWord_absent (unlike (by decide))).bind fun _ none => ?_
    subst none
    refine (yields_ident free).discard.bind fun _ _ => ?_
    refine (yields_optionalSign_absent (ends.unsigned (by decide) (by decide))).bind
      fun _ none => ?_
    subst none
    exact reaches_pure
  rcases marks with rfl | rfl
  · refine (yields_optionalWord_absent (unlike (by decide))).discard.bind fun _ _ => ?_
    exact (yields_optionalWord_absent (unlike (by decide))).discard.bind fun _ _ => named
  · refine (yields_optionalWord_absent (by simp [Unworded, Token.plain])).discard.bind fun _ _ => ?_
    exact yields_optionalWord.discard.bind fun _ _ => named

theorem isPattern_name (free : x.isKeyword = false) : IsPattern [.word x] := by
  have named : x ≠ ⟨"else", false⟩ := by
    rintro rfl
    exact absurd free (by decide)
  refine isPattern_of_form ⟨_, _, rfl, .inl ⟨x, rfl, named⟩⟩ fun depth rest _ ends => ?_
  have other := fun name => @Ahead.beq_of_not_keyword name x free
  refine yields_ahead_apart apart_word fun joint behind lexed => ?_
  have noColons := ends.unsigned_colons behind lexed
  have noMark := ends.unsigned (s := "!") (by decide) (by decide) behind lexed
  have noRange := ends.unsigned (s := "..") (by decide) (by decide) behind lexed
  dsimp only
  rw [if_neg (by simp (disch := decide) [other, noColons, noMark, noRange, ends.opening lexed]),
    if_neg (by simp (disch := decide) [other]), if_neg (by simp (disch := decide) [other]),
    if_neg (by simp (disch := decide) [other]),
    if_neg (by simp (disch := decide) [other, Ahead.literal, Ahead.literalText?]),
    if_pos (by simp [free])]
  exact reaches_namePattern free (.inl rfl) ends

theorem isPattern_mut (free : x.isKeyword = false) : IsPattern [.plain "mut", .word x] := by
  refine isPattern_of_form ⟨_, _, rfl, .inl ⟨_, rfl, by decide⟩⟩ fun depth rest _ ends => ?_
  refine yields_ahead_apart apart_plain fun joint behind lexed => ?_
  exact reaches_namePattern free (.inr rfl) ends

theorem isPattern_any : IsPattern [.plain "_"] := by
  refine isPattern_of_form ⟨_, _, rfl, .inl ⟨_, rfl, by decide⟩⟩ fun depth rest _ ends => ?_
  refine yields_ahead_cons fun joint behind lexed => ?_
  exact (yields_take apart_plain).discard

/-- A pattern is read where alternatives may stand. -/
theorem IsPattern.patterns (pattern : IsPattern code) {depth : Nat} (enough : code.length ≤ depth)
    (ends : EndsPattern rest) : (Rules.patterns (nested depth)).Reaches (code ++ rest) rest := by
  have absent : Unsigned "|" (code ++ rest) := pattern.begins.unsigned (by decide) (by decide)
  refine (yields_optionalSign_absent absent).discard.bind fun _ _ => ?_
  refine (pattern.reads depth rest enough ends).bind fun _ _ => ?_
  refine reaches_repeated (· = rest) (fun whole same => .inl ?_) rfl
  subst same
  refine yields_ahead fun lexemes lexed => ?_
  rw [ends.unsigned (by decide) (by decide) lexemes lexed, Bool.false_and,
    if_neg Bool.false_ne_true]
  exact yields_pure rfl

theorem endsPattern_of_endsEntry (ends : EndsEntry rest) : EndsPattern rest := by
  refine .inl fun token here => ?_
  rcases ends with ended | comma
  · obtain ⟨d, rfl⟩ := ended token here
    cases d <;> decide
  · rw [comma] at here
    cases here
    decide

theorem IsPattern.entry (pattern : IsPattern code) {depth : Nat} (enough : code.length ≤ depth) :
    Entry (Rules.patterns (nested depth)) code where
  begins _ := pattern.begins.not_ended
  reads _ ends := pattern.patterns enough (endsPattern_of_endsEntry ends)

theorem reaches_patterns {depth : Nat} (patterns : ∀ code ∈ codes, IsPattern code)
    (enough : (commas codes).length ≤ depth) :
    (Scan.within .round (separated "," (Rules.patterns (nested depth)))).Reaches
      (within .round (commas codes) ++ rest) rest := by
  have inside : (separated "," (Rules.patterns (nested depth))).Reaches
      (commas codes ++ .closing .round :: rest) (.closing .round :: rest) :=
    reaches_separated (fun code member =>
      (patterns code member).entry (Nat.le_trans (length_le_commas member) enough)) ended_closing
  rw [within_append]
  exact Yields.within inside

theorem isPattern_tuple (patterns : ∀ code ∈ codes, IsPattern code) :
    IsPattern (within .round (commas codes)) := by
  refine isPattern_of_form ⟨_, _, rfl, .inr (.inl rfl)⟩ fun depth rest enough ends => ?_
  simp only [Code.within, List.length_cons, List.length_append, List.length_nil] at enough
  have inside : (commas codes).length ≤ depth := by omega
  refine yields_ahead_cons fun joint behind lexed => ?_
  dsimp only
  rw [if_neg (by simp [Ahead.ident, Ahead.word?]), if_neg (by simp), if_neg (by simp),
    if_neg (by simp), if_neg (by simp [Ahead.literal, Ahead.literalText?]),
    if_neg (by simp [Ahead.ident, Ahead.word?]), if_neg (by simp),
    if_pos (by simp [Ahead.opening])]
  exact reaches_patterns patterns inside

/-- A constructor with its content. Its path begins with a word that no name of a variable is. -/
theorem isPattern_constructor {path : Code} (named : IsPath path)
    (begins : (∃ later, path = .plain "Self" :: later) ∨
      ∃ y later, path = .punct ':' :: .punct ':' :: .word y :: later)
    (patterns : ∀ code ∈ codes, IsPattern code) :
    IsPattern (path ++ within .round (commas codes)) := by
  have form : ∀ depth rest, (commas codes).length ≤ depth → EndsPattern rest →
      (pathPattern (nested depth)).Reaches (path ++ within .round (commas codes) ++ rest) rest := by
    intro depth rest enough ends
    rw [List.append_assoc]
    refine yields_ahead fun lexemes lexed => ?_
    have noAngle : Unsigned "<" (path ++ (within .round (commas codes) ++ rest)) :=
      unsigned_of_head (by decide) fun c head => by
        obtain rfl : '<' = c := Option.some.inj head
        rcases begins with ⟨later, rfl⟩ | ⟨y, later, rfl⟩ <;> simp [Token.plain]
    rw [noAngle lexemes lexed, if_neg Bool.false_ne_true]
    have ended : EndsPath (within .round (commas codes) ++ rest) := by
      simp [EndsPath, Code.within, sign]
    refine (named.reaches ended).bind fun found _ => ?_
    refine yields_ahead_cons fun joint behind lexed => ?_
    rw [if_neg (by simp)]
    refine yields_ahead_cons fun joint behind lexed => ?_
    rw [if_neg (by simp [Ahead.opening]), if_pos (by simp [Ahead.opening])]
    exact reaches_patterns patterns enough
  have enough {depth : Nat} (whole : (path ++ within .round (commas codes)).length ≤ depth + 1) :
      (commas codes).length ≤ depth := by
    simp only [Code.within, List.length_append, List.length_cons, List.length_nil] at whole
    omega
  rcases begins with ⟨later, rfl⟩ | ⟨y, later, rfl⟩
  · refine isPattern_of_form ⟨_, _, rfl, .inl ⟨_, rfl, by decide⟩⟩ fun depth rest whole ends => ?_
    have read := form depth rest (enough whole) ends
    exact yields_ahead_cons fun joint behind lexed => read
  · refine isPattern_of_form ⟨_, _, rfl, .inr (.inr rfl)⟩ fun depth rest whole ends => ?_
    have read := form depth rest (enough whole) ends
    exact yields_ahead_pair (by decide) (by simp) read

theorem isPattern_binding : (binding : Binding) → (∀ x ∈ binding.words, x.isKeyword = false) →
    IsPattern binding.code
  | .name x, free => isPattern_name (free x List.mem_cons_self)
  | .pair first second, free => by
    have both : ∀ code ∈ [[Token.word first], [.word second]], IsPattern code := by
      simp only [List.forall_mem_cons]
      exact ⟨isPattern_name (free first (by simp [Binding.words])),
        isPattern_name (free second (by simp [Binding.words])), nofun⟩
    exact isPattern_tuple both
  | .present x, free => by
    have content : ∀ code ∈ [[.word x]], IsPattern code :=
      List.forall_mem_singleton.mpr (isPattern_name (free x List.mem_cons_self))
    refine isPattern_constructor (isPath_rooted ?_) (.inr ⟨_, _, rfl⟩) content
    simp only [List.forall_mem_cons]
    exact ⟨.inl rfl, .inl rfl, .inl rfl, .inl rfl, nofun⟩

end Code
end EntityGen
