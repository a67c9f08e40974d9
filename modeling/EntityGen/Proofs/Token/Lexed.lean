import EntityGen.Proofs.Token.Scanning
import EntityGen.Token.Signs

/-! Tokens at a place within code. Which of them are joined depends on the sign that the place may
stand in, but only angle brackets and equals signs ever continue a sign across the end of a rule.
All other signs begin and end within one rule, which finds them joined. -/
namespace EntityGen.Code

/-- Of all characters there are, only those of the list are tried. -/
instance decidableForallChars (p : Char → Prop) [DecidablePred p] (chars : List Char) :
    Decidable (∀ c ∈ chars, p c) := List.decidableBAll p chars

instance decidableExistsChars (p : Char → Prop) [DecidablePred p] (chars : List Char) :
    Decidable (∃ c ∈ chars, p c) := List.decidableBEx p chars

instance decidableForallChar (p : Char → Prop) [DecidablePred p] (char : Option Char) :
    Decidable (∀ c ∈ char, p c) :=
  decidable_of_iff (∀ c ∈ char.toList, p c) (by simp)

variable {token : Token} {rest code : Code} {lexemes : List Lexeme} {left : Nat} {c d : Char}

def angles : Code := sign ['<', '>', '=']

/-- Two characters stand first that are one sign and begin with an equals sign. -/
def Doubled (code : Code) : Prop := sign ['=', '='] <+: code ∨ sign ['=', '>'] <+: code

/-- The lexemes are those of the code from a place on that may stand within a sign. -/
def Lexed (code : Code) (lexemes : List Lexeme) : Prop :=
  ∃ left, (∀ token ∈ code.take left, token ∈ angles) ∧ (left ≠ 0 → ¬code.Doubled) ∧
    lexemes = lexemesFrom left code

def repeatable : List Char := ['.', ':', '&', '|']

/-- Characters that begin signs which angle brackets and equals signs go on with. -/
def continued : List Char := ['-', '=', '!', '<', '>', '+', '*', '/', '%', '^', '&', '|']

/-- No sign but one of angle brackets and equals signs goes on behind the token, and none begins
behind it that a rule has to find whole. Of three colons the first stands for itself. -/
structure Apart (token : Token) (rest : Code) : Prop where
  unrepeated : token ∈ sign repeatable → rest.head? = some token →
    token = .punct ':' ∧ sign [':', ':'] <+: rest
  undoubled : token ∈ sign continued → ¬rest.Doubled

theorem apart_of_not_punct (other : ∀ c, token ≠ .punct c) : Apart token rest :=
  ⟨fun member => absurd (List.mem_map.mp member) fun ⟨c, _, same⟩ => other c same.symm,
    fun member => absurd (List.mem_map.mp member) fun ⟨c, _, same⟩ => other c same.symm⟩

theorem apart_of_not_mem (other : c ∉ repeatable ++ continued) : Apart (.punct c) rest := by
  have listed {chars : List Char} (member : Token.punct c ∈ sign chars) : c ∈ chars := by
    obtain ⟨d, member, same⟩ := List.mem_map.mp member
    exact Token.punct.inj same ▸ member
  exact ⟨fun member => absurd (List.mem_append_left _ (listed member)) other,
    fun member => absurd (List.mem_append_right _ (listed member)) other⟩

theorem lexed_lexemes (code : Code) : code.Lexed code.lexemes := ⟨0, nofun, nofun, rfl⟩

@[simp] theorem lexed_nil : Lexed [] lexemes ↔ lexemes = [] := by
  constructor
  · rintro ⟨left, -, -, rfl⟩
    rfl
  · rintro rfl
    exact lexed_lexemes []

/-- Of the known signs, some repeat one character and all others go on with angle brackets and
equals signs. -/
theorem tail_of_mem_signs : ∀ known ∈ signs, (∃ c ∈ repeatable, [c, c] <+: known) ∨
    (∃ c ∈ continued, known.head? = some c) ∧ ∀ d ∈ known.tail, d ∈ ['<', '>', '='] := by decide

theorem sign_prefix_of_isPrefixOf {chars : List Char} {code : Code}
    (ahead : chars <+: punctuation code) : sign chars <+: code := by
  induction code generalizing chars with
  | nil => rw [List.prefix_nil.mp ahead]; exact List.nil_prefix
  | cons token rest ih =>
    cases chars with
    | nil => exact List.nil_prefix
    | cons c chars =>
      cases token with
      | punct d =>
        obtain ⟨rfl, later⟩ := List.cons_prefix_cons.mp ahead
        exact List.cons_prefix_cons.mpr ⟨rfl, ih later⟩
      | word | lifetime | literal | opening | closing => cases List.prefix_nil.mp ahead

/-- What a sign goes on with behind a token that stands apart. -/
theorem of_signLength_ne_one (apart : Apart token rest) (several : signLength (token :: rest) ≠ 1) :
    token ∈ sign continued ∧
      ∀ later ∈ rest.take (signLength (token :: rest) - 1), later ∈ angles := by
  unfold signLength at several ⊢
  dsimp only at several ⊢
  split at several
  next => exact absurd rfl several
  next alone =>
    rw [if_neg alone]
    cases found : signs.find? fun sign => sign.isPrefixOf (punctuation (token :: rest)) with
    | none =>
      rw [found] at several
      exact absurd rfl several
    | some known =>
      have first := List.find?_some found
      have ahead : sign known <+: token :: rest :=
        sign_prefix_of_isPrefixOf (List.isPrefixOf_iff_prefix.mp first)
      rcases tail_of_mem_signs known (List.mem_of_find?_eq_some found) with
        ⟨c, listed, twice⟩ | ⟨⟨c, listed, head⟩, later⟩
      · have both : sign [c, c] <+: token :: rest := (twice.map _).trans ahead
        obtain ⟨rfl, second⟩ := List.cons_prefix_cons.mp both
        have head : rest.head? = some (.punct c) := by
          obtain ⟨others, rfl⟩ := second
          rfl
        obtain ⟨same, others, rfl⟩ := apart.unrepeated (List.mem_map_of_mem listed) head
        rw [same] at alone
        exact absurd rfl alone
      · obtain ⟨known, rfl⟩ := List.head?_eq_some_iff.mp head
        obtain ⟨rfl, others, rfl⟩ := List.cons_prefix_cons.mp ahead
        refine ⟨List.mem_map_of_mem listed, fun next taken => ?_⟩
        have inside : next ∈ sign known := by
          simpa [sign, List.take_append_of_le_length] using taken
        obtain ⟨d, member, same⟩ := List.mem_map.mp inside
        exact same ▸ List.mem_map_of_mem (later d member)

/-- A token that stands apart is followed by what follows it in the code. -/
theorem Lexed.cons (lexed : Lexed (token :: rest) lexemes) (apart : Apart token rest) :
    ∃ joint behind, lexemes = ⟨token, joint, .none⟩ :: behind ∧ Lexed rest behind := by
  obtain ⟨left, inside, -, rfl⟩ := lexed
  refine ⟨_, _, rfl, _, ?_, ?_, rfl⟩
  · cases left with
    | zero =>
      by_cases alone : signLength (token :: rest) = 1
      · simp [alone]
      · exact (of_signLength_ne_one apart alone).2
    | succ left => exact fun later member => inside later (List.mem_cons_of_mem _ member)
  · intro going
    refine apart.undoubled ?_
    cases left with
    | zero =>
      refine (of_signLength_ne_one apart fun alone => going ?_).1
      show signLength (token :: rest) - 1 = 0
      rw [alone]
    | succ left =>
      obtain ⟨c, listed, same⟩ := List.mem_map.mp (inside token List.mem_cons_self)
      have wider : ∀ c ∈ ['<', '>', '='], c ∈ continued := by decide
      exact same ▸ List.mem_map_of_mem (wider c listed)

/-- What does not begin with an angle bracket or a single equals sign begins a sign of its own. -/
theorem Lexed.eq_lexemes (lexed : Lexed (token :: rest) lexemes)
    (begins : token ∉ angles ∨ Doubled (token :: rest)) :
    lexemes = Code.lexemes (token :: rest) := by
  obtain ⟨left, inside, single, rfl⟩ := lexed
  cases left with
  | zero => rfl
  | succ left =>
    rcases begins with other | doubled
    · exact absurd (inside token List.mem_cons_self) other
    · exact absurd doubled (single (Nat.succ_ne_zero left))

def pairs : List (Char × Char) := [(':', ':'), ('-', '>'), ('=', '>'), ('=', '='), ('|', '|')]

theorem signLength_pair (known : (c, d) ∈ pairs) (other : c = ':' → rest.head? ≠ some (.punct c)) :
    signLength (.punct c :: .punct d :: rest) = 2 := by
  simp only [pairs, List.mem_cons, Prod.mk.injEq, List.not_mem_nil, or_false] at known
  rcases known with ⟨rfl, rfl⟩ | ⟨rfl, rfl⟩ | ⟨rfl, rfl⟩ | ⟨rfl, rfl⟩ | ⟨rfl, rfl⟩
  · match rest with
    | [] => rfl
    | .word _ :: _ | .lifetime _ :: _ | .literal _ :: _ | .opening _ :: _ | .closing _ :: _ => rfl
    | .punct e :: others =>
      have differs : (':' == e) = false := by
        refine beq_eq_false_iff_ne.mpr fun same => other rfl ?_
        rw [← same]
        rfl
      simp [signLength, punctuation, signs, List.isPrefixOf, differs]
  all_goals rfl

/-- A sign of two characters is joined, and what stands behind it begins anew. -/
theorem Lexed.pair (lexed : Lexed (.punct c :: .punct d :: rest) lexemes) (known : (c, d) ∈ pairs)
    (other : c = ':' → rest.head? ≠ some (.punct c)) :
    lexemes = ⟨.punct c, true, .none⟩ :: ⟨.punct d, false, .none⟩ :: Code.lexemes rest := by
  have begins : Token.punct c ∉ angles ∨ Doubled (.punct c :: .punct d :: rest) := by
    simp only [pairs, List.mem_cons, Prod.mk.injEq, List.not_mem_nil, or_false] at known
    rcases known with ⟨rfl, rfl⟩ | ⟨rfl, rfl⟩ | ⟨rfl, rfl⟩ | ⟨rfl, rfl⟩ | ⟨rfl, rfl⟩
    · exact .inl (by decide)
    · exact .inl (by decide)
    · exact .inr (.inr ⟨rest, rfl⟩)
    · exact .inr (.inl ⟨rest, rfl⟩)
    · exact .inl (by decide)
  rw [lexed.eq_lexemes begins, Code.lexemes, lexemesFrom, if_pos (by rfl),
    signLength_pair known other]
  rfl

theorem length_lexemesFrom (left : Nat) (code : Code) :
    (lexemesFrom left code).length = code.length := by
  induction code generalizing left with
  | nil => rfl
  | cons token rest ih => exact congrArg Nat.succ (ih _)

theorem Lexed.length_eq (lexed : Lexed code lexemes) : lexemes.length = code.length := by
  obtain ⟨left, -, -, rfl⟩ := lexed
  exact length_lexemesFrom left code

end EntityGen.Code
