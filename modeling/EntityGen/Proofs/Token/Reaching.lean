import EntityGen.Proofs.Token.Lexed
import EntityGen.Proofs.Token.Opening

/-! Scans that cannot fail. Where certain code stands ahead, such a scan gives a result and gets
behind that code. Scans that are put together of others get where the last of them gets, and what
is repeated goes on as long as each round gets closer to the end. -/
namespace EntityGen

namespace Ahead

variable {s : String} {name : String} {names all : List String} {x : Ident} {text : String}
  {c : Char}
  {d : Delimiter} {joint : Bool} {pos : Pos} {behind : List Lexeme} {token : Token}

theorem sign_of_not_punct (written : s ≠ "") (other : ∀ c, token ≠ .punct c) :
    sign s (⟨token, joint, pos⟩ :: behind) = false := by
  unfold sign
  cases spelled : s.toList with
  | nil => exact absurd (String.toList_eq_nil_iff.mp spelled) written
  | cons c later =>
    cases token with
    | punct d => exact absurd rfl (other d)
    | word | lifetime | literal | opening | closing => cases later <;> rfl

@[simp] theorem sign_word (written : s ≠ "") : sign s (⟨.word x, joint, pos⟩ :: behind) = false :=
  sign_of_not_punct written nofun

@[simp] theorem sign_opening (written : s ≠ "") :
    sign s (⟨.opening d, joint, pos⟩ :: behind) = false := sign_of_not_punct written nofun

@[simp] theorem signs_nil : signs [] behind = false := rfl

@[simp] theorem signs_cons : signs (s :: all) behind = (sign s behind || signs all behind) := rfl

@[simp] theorem word_word :
    word name (⟨.word x, joint, pos⟩ :: behind) = (x == ⟨name, false⟩) := rfl

@[simp] theorem word_punct : word name (⟨.punct c, joint, pos⟩ :: behind) = false := rfl

@[simp] theorem word_literal : word name (⟨.literal text, joint, pos⟩ :: behind) = false := rfl

@[simp] theorem word_opening : word name (⟨.opening d, joint, pos⟩ :: behind) = false := rfl

@[simp] theorem words_nil : words [] behind = false := rfl

@[simp] theorem words_cons :
    words (name :: names) behind = (word name behind || words names behind) := rfl

@[simp] theorem ident_word : ident (⟨.word x, joint, pos⟩ :: behind) = !x.isKeyword := rfl

/-- A word that is no keyword is none of the words that are. -/
theorem beq_of_not_keyword (free : x.isKeyword = false) (keyword : keywords.contains name = true) :
    (x == ⟨name, false⟩) = false := by
  refine beq_eq_false_iff_ne.mpr ?_
  rintro rfl
  rw [Ident.isKeyword, Bool.not_false, Bool.true_and, keyword] at free
  cases free

end Ahead

namespace Code

def Ended (code : Code) : Prop := ∀ token ∈ code.head?, ∃ d, token = .closing d

def EndsEntry (rest : Code) : Prop := Ended rest ∨ rest.head? = some (.punct ',')

theorem within_append {d : Delimiter} {code rest : Code} :
    within d code ++ rest = .opening d :: (code ++ .closing d :: rest) := by
  simp [within]

theorem commas_singleton (code : Code) : commas [code] = code := by simp [commas]

@[simp] theorem commas_nil : commas [] = [] := rfl

theorem commas_cons_cons (first second : Code) (others : List Code) :
    commas (first :: second :: others) = first ++ .punct ',' :: commas (second :: others) := by
  simp [commas]

end Code

namespace Scan

open Code

variable {α β : Type} {scan : Scan α} {next : α → Scan β} {wanted : α → Prop} {goal : β → Prop}
  {whole middle rest : Code} {token : Token} {c d : Char} {s : String} {x : Ident}

/-- From where `whole` stands ahead, the scan gives a result as wanted and gets to `rest`. -/
def Yields (scan : Scan α) (whole : Code) (wanted : α → Prop) (rest : Code) : Prop :=
  ∀ cursor : Cursor, whole.Lexed cursor.rest →
    ∃ a after, scan.Reads cursor a after ∧ wanted a ∧ rest.Lexed after.rest

abbrev Reaches (scan : Scan α) (whole rest : Code) : Prop := scan.Yields whole (fun _ => True) rest

theorem Yields.mono {other : α → Prop} (yields : scan.Yields whole wanted rest)
    (weaker : ∀ a, wanted a → other a) : scan.Yields whole other rest := by
  intro cursor lexed
  obtain ⟨a, after, reads, good, left⟩ := yields cursor lexed
  exact ⟨a, after, reads, weaker a good, left⟩

theorem Yields.reaches (yields : scan.Yields whole wanted rest) : scan.Reaches whole rest :=
  yields.mono fun _ _ => trivial

/-- A scan does not get to more than what stood ahead. -/
theorem Yields.length_le (yields : scan.Yields whole wanted rest) : rest.length ≤ whole.length := by
  obtain ⟨a, after, reads, -, left⟩ := yields ⟨whole.lexemes, []⟩ (lexed_lexemes whole)
  have shorter := reads.isSuffix.length_le
  rwa [left.length_eq, (lexed_lexemes whole).length_eq] at shorter

theorem yields_pure {a : α} (good : wanted a) : (pure a : Scan α).Yields rest wanted rest :=
  fun cursor lexed => ⟨a, cursor, reads_pure.mpr ⟨rfl, rfl⟩, good, lexed⟩

theorem reaches_pure {a : α} : (pure a : Scan α).Reaches rest rest := yields_pure trivial

theorem Yields.bind (first : scan.Yields whole wanted middle)
    (second : ∀ a, wanted a → (next a).Yields middle goal rest) :
    (scan >>= next).Yields whole goal rest := by
  intro cursor lexed
  obtain ⟨a, between, reads, good, left⟩ := first cursor lexed
  obtain ⟨b, after, later, done, left⟩ := second a good between left
  exact ⟨b, after, reads_bind.mpr ⟨a, between, reads, later⟩, done, left⟩

theorem Yields.map {f : α → β} (yields : scan.Yields whole wanted rest)
    (good : ∀ a, wanted a → goal (f a)) : (f <$> scan).Yields whole goal rest :=
  yields.bind fun a here => yields_pure (good a here)

theorem Yields.discard (yields : scan.Yields whole wanted rest) :
    (discard scan).Reaches whole rest :=
  yields.map fun _ _ => trivial

theorem yields_ahead {next : List Lexeme → Scan β}
    (here : ∀ lexemes, whole.Lexed lexemes → (next lexemes).Yields whole goal rest) :
    (ahead >>= next).Yields whole goal rest := by
  intro cursor lexed
  obtain ⟨b, after, reads, found⟩ := here cursor.rest lexed cursor lexed
  exact ⟨b, after, reads_ahead_bind.mpr reads, found⟩

/-- Where a token stands ahead, that token is seen. -/
theorem yields_ahead_cons {next : List Lexeme → Scan β}
    (here : ∀ joint behind, Lexed (token :: middle) (⟨token, joint, .none⟩ :: behind) →
      (next (⟨token, joint, .none⟩ :: behind)).Yields (token :: middle) goal rest) :
    (ahead >>= next).Yields (token :: middle) goal rest := by
  refine yields_ahead fun lexemes lexed => ?_
  obtain ⟨left, inside, single, rfl⟩ := lexed
  exact here _ _ ⟨left, inside, single, rfl⟩

/-- Where a token stands ahead and apart, what stands behind it is seen as well. -/
theorem yields_ahead_apart {next : List Lexeme → Scan β} (apart : Apart token middle)
    (here : ∀ joint behind, middle.Lexed behind →
      (next (⟨token, joint, .none⟩ :: behind)).Yields (token :: middle) goal rest) :
    (ahead >>= next).Yields (token :: middle) goal rest := by
  refine yields_ahead fun lexemes lexed => ?_
  obtain ⟨joint, behind, rfl, later⟩ := lexed.cons apart
  exact here joint behind later

/-- Where a sign of two characters stands ahead, it is seen, and what stands behind it. -/
theorem yields_ahead_pair {next : List Lexeme → Scan β} (known : (c, d) ∈ pairs)
    (other : c = ':' → middle.head? ≠ some (.punct c))
    (here : (next (⟨.punct c, true, .none⟩ :: ⟨.punct d, false, .none⟩ :: middle.lexemes)).Yields
      (.punct c :: .punct d :: middle) goal rest) :
    (ahead >>= next).Yields (.punct c :: .punct d :: middle) goal rest := by
  refine yields_ahead fun lexemes lexed => ?_
  rw [lexed.pair known other]
  exact here

theorem yields_take (apart : Apart token rest) : take.Yields (token :: rest) (· = token) rest := by
  intro cursor lexed
  obtain ⟨joint, behind, left, lexed⟩ := lexed.cons apart
  refine ⟨token, ⟨behind, .token token :: cursor.seen⟩, ?_, rfl, lexed⟩
  exact reads_take.mpr ⟨⟨token, joint, .none⟩, rfl, left, rfl⟩

theorem yields_take_bind {next : Scan β} (apart : Apart token middle)
    (later : next.Yields middle goal rest) :
    (do discard take; next).Yields (token :: middle) goal rest :=
  (yields_take apart).discard.bind fun _ _ => later

theorem sign_single {lexemes : List Lexeme} (single : s.toList = [c])
    (lexed : Lexed (.punct c :: rest) lexemes) : Ahead.sign s lexemes := by
  obtain ⟨left, -, -, rfl⟩ := lexed
  exact (Ahead.sign_singleton single).mpr ⟨_, _, rfl, rfl⟩

/-- A sign of two characters that stands ahead is found. -/
theorem sign_pair {lexemes : List Lexeme} (double : s.toList = [c, d]) (known : (c, d) ∈ pairs)
    (other : c = ':' → rest.head? ≠ some (.punct c))
    (lexed : Lexed (.punct c :: .punct d :: rest) lexemes) : Ahead.sign s lexemes := by
  rw [lexed.pair known other, Ahead.sign, double]
  simp [Ahead.signFrom]

theorem reaches_takeAll_pair (known : (c, d) ∈ pairs)
    (other : c = ':' → rest.head? ≠ some (.punct c)) :
    (takeAll 2).Reaches (.punct c :: .punct d :: rest) rest := by
  intro cursor lexed
  refine ⟨(), ⟨rest.lexemes, .token (.punct d) :: .token (.punct c) :: cursor.seen⟩, ?_, trivial,
    lexed_lexemes rest⟩
  have left := lexed.pair known other
  refine reads_bind.mpr ⟨(), ⟨_, .token (.punct c) :: cursor.seen⟩,
    (reads_take_of_rest left).mpr ⟨left, rfl⟩, ?_⟩
  exact reads_bind.mpr ⟨(), _, (reads_take_of_rest rfl).mpr ⟨rfl, rfl⟩, reads_pure.mpr ⟨rfl, rfl⟩⟩

theorem reaches_takeAll_single (apart : Apart token rest) :
    (takeAll 1).Reaches (token :: rest) rest := yields_take_bind apart reaches_pure

theorem reaches_expectSign (single : s.toList = [c]) (apart : Apart (.punct c) rest) :
    (expectSign s).Reaches (.punct c :: rest) rest := by
  refine yields_ahead fun lexemes lexed => ?_
  have one : s.length = 1 := by rw [← String.length_toList, single]; rfl
  rw [if_pos (sign_single single lexed), one]
  exact reaches_takeAll_single apart

theorem reaches_expectPair (double : s.toList = [c, d]) (known : (c, d) ∈ pairs)
    (other : c = ':' → rest.head? ≠ some (.punct c)) :
    (expectSign s).Reaches (.punct c :: .punct d :: rest) rest := by
  refine yields_ahead fun lexemes lexed => ?_
  have two : s.length = 2 := by rw [← String.length_toList, double]; rfl
  rw [if_pos (sign_pair double known other lexed), two]
  exact reaches_takeAll_pair known other

/-- Two colons that no third one follows are taken as one sign. -/
theorem reaches_expectColons (other : rest.head? ≠ some (.punct ':')) :
    (expectSign "::").Reaches (.punct ':' :: .punct ':' :: rest) rest :=
  reaches_expectPair rfl (by decide) fun _ => other

theorem yields_optionalSign (single : s.toList = [c]) (apart : Apart (.punct c) rest) :
    (optionalSign s).Yields (.punct c :: rest) (· = true) rest := by
  refine yields_ahead fun lexemes lexed => ?_
  have one : s.length = 1 := by rw [← String.length_toList, single]; rfl
  rw [if_pos (sign_single single lexed), one]
  exact (reaches_takeAll_single apart).bind fun _ _ => yields_pure rfl

theorem yields_optionalPair (double : s.toList = [c, d]) (known : (c, d) ∈ pairs)
    (other : c = ':' → rest.head? ≠ some (.punct c)) :
    (optionalSign s).Yields (.punct c :: .punct d :: rest) (· = true) rest := by
  refine yields_ahead fun lexemes lexed => ?_
  have two : s.length = 2 := by rw [← String.length_toList, double]; rfl
  rw [if_pos (sign_pair double known other lexed), two]
  exact (reaches_takeAll_pair known other).bind fun _ _ => yields_pure rfl

theorem yields_optionalColons (other : rest.head? ≠ some (.punct ':')) :
    (optionalSign "::").Yields (.punct ':' :: .punct ':' :: rest) (· = true) rest :=
  yields_optionalPair rfl (by decide) fun _ => other

def Unsigned (s : String) (code : Code) : Prop :=
  ∀ lexemes, code.Lexed lexemes → Ahead.sign s lexemes = false

theorem unsigned_of_head (written : s ≠ "")
    (other : ∀ c ∈ s.toList.head?, rest.head? ≠ some (.punct c)) : Unsigned s rest := by
  rintro _ ⟨left, -, -, rfl⟩
  unfold Ahead.sign
  cases spelled : s.toList with
  | nil => exact absurd (String.toList_eq_nil_iff.mp spelled) written
  | cons c later =>
    have differs := other c (by rw [spelled]; rfl)
    cases rest with
    | nil => cases later <;> rfl
    | cons token others =>
      cases token with
      | word | lifetime | literal | opening | closing => cases later <;> rfl
      | punct d =>
        have unlike : (c == d) = false := beq_eq_false_iff_ne.mpr
          fun same => differs (by rw [same]; rfl)
        cases later with
        | nil => exact unlike
        | cons =>
          rw [lexemesFrom, Ahead.signFrom, unlike, Bool.false_and, Bool.false_and]
          exact List.cons_ne_nil _ _

/-- A sign of two characters does not stand where the second is another one. -/
theorem unsigned_of_second (double : s.toList = [c, d]) (other : rest.head? ≠ some (.punct d)) :
    Unsigned s (token :: rest) := by
  rintro _ ⟨left, -, -, rfl⟩
  unfold Ahead.sign
  rw [double]
  cases token with
  | punct e =>
    match rest with
    | [] => exact Bool.and_false _
    | .word _ :: _ | .lifetime _ :: _ | .literal _ :: _ | .opening _ :: _ | .closing _ :: _ =>
      exact Bool.and_false _
    | .punct f :: others =>
      have unlike : (d == f) = false := beq_eq_false_iff_ne.mpr
        fun same => other (by rw [same]; rfl)
      show (_ && d == f) = false
      rw [unlike, Bool.and_false]
  | word | lifetime | literal | opening | closing => rfl

theorem yields_optionalSign_absent (absent : Unsigned s rest) :
    (optionalSign s).Yields rest (· = false) rest := by
  refine yields_ahead fun lexemes lexed => ?_
  rw [absent lexemes lexed]
  exact yields_pure rfl

theorem word_plain {lexemes : List Lexeme} {name : String}
    (lexed : Lexed (.plain name :: rest) lexemes) : Ahead.word name lexemes := by
  obtain ⟨left, -, -, rfl⟩ := lexed
  exact beq_self_eq_true _

theorem apart_word : Apart (.word x) rest := apart_of_not_punct nofun

theorem apart_plain {name : String} : Apart (.plain name) rest := apart_of_not_punct nofun

theorem apart_opening {d : Delimiter} : Apart (.opening d) rest := apart_of_not_punct nofun

theorem apart_closing {d : Delimiter} : Apart (.closing d) rest := apart_of_not_punct nofun

theorem apart_lifetime {text : String} : Apart (.lifetime text) rest := apart_of_not_punct nofun

theorem apart_literal {text : String} : Apart (.literal text) rest := apart_of_not_punct nofun

theorem reaches_expectWord {name : String} :
    (expectWord name).Reaches (.plain name :: rest) rest := by
  refine yields_ahead fun lexemes lexed => ?_
  rw [if_pos (word_plain lexed)]
  exact (yields_take apart_plain).discard

theorem yields_optionalWord {name : String} :
    (optionalWord name).Yields (.plain name :: rest) (· = true) rest := by
  refine yields_ahead fun lexemes lexed => ?_
  rw [if_pos (word_plain lexed)]
  exact yields_take_bind apart_plain (yields_pure rfl)

def Unworded (name : String) (code : Code) : Prop := code.head? ≠ some (.plain name)

theorem Unworded.word_eq {name : String} {lexemes : List Lexeme} (other : Unworded name rest)
    (lexed : rest.Lexed lexemes) : Ahead.word name lexemes = false := by
  obtain ⟨left, -, -, rfl⟩ := lexed
  match rest with
  | [] | .punct _ :: _ | .lifetime _ :: _ | .literal _ :: _ | .opening _ :: _ | .closing _ :: _ => rfl
  | .word x :: _ =>
    refine beq_eq_false_iff_ne.mpr fun same => other ?_
    rw [Option.some.inj same]
    rfl

theorem yields_optionalWord_absent {name : String} (absent : Unworded name rest) :
    (optionalWord name).Yields rest (· = false) rest := by
  refine yields_ahead fun lexemes lexed => ?_
  rw [absent.word_eq lexed]
  exact yields_pure rfl

theorem yields_anyWord : anyWord.Yields (.word x :: rest) (· = x) rest := by
  intro cursor lexed
  obtain ⟨joint, behind, left, lexed⟩ := lexed.cons apart_word
  refine ⟨x, ⟨behind, .token (.word x) :: cursor.seen⟩, ?_, rfl, lexed⟩
  exact reads_anyWord.mpr ⟨⟨.word x, joint, .none⟩, rfl, left, rfl⟩

theorem yields_ident (free : x.isKeyword = false) :
    ident.Yields (.word x :: rest) (· = x) rest := by
  intro cursor lexed
  obtain ⟨_, after, reads, rfl, left⟩ := yields_anyWord cursor lexed
  exact ⟨_, after, reads_ident.mpr ⟨free, reads⟩, rfl, left⟩

theorem finished_iff {lexemes : List Lexeme} (lexed : rest.Lexed lexemes) :
    Ahead.finished lexemes ↔ Ended rest := by
  obtain ⟨left, -, -, rfl⟩ := lexed
  match rest with
  | [] => exact iff_of_true rfl nofun
  | .closing d :: _ => exact iff_of_true rfl fun token same => ⟨d, (Option.some.inj same).symm⟩
  | .word _ :: _ | .lifetime _ :: _ | .punct _ :: _ | .literal _ :: _ | .opening _ :: _ =>
    refine iff_of_false nofun fun ended => ?_
    obtain ⟨d, same⟩ := ended _ rfl
    cases same

theorem finished_eq_false {lexemes : List Lexeme} (lexed : rest.Lexed lexemes)
    (begun : ¬Ended rest) : Ahead.finished lexemes = false :=
  Bool.eq_false_iff.mpr (mt (finished_iff lexed).mp begun)

theorem ended_closing {d : Delimiter} : Ended (.closing d :: rest) := by simp [Ended]

theorem reaches_finish (ended : Ended rest) : finish.Reaches rest rest := by
  refine yields_ahead fun lexemes lexed => ?_
  rw [if_neg (by simp [(finished_iff lexed).mpr ended])]
  exact reaches_pure

/-- What fills a pair of brackets is read between them. -/
theorem Yields.within {d : Delimiter} (body : scan.Yields whole wanted (.closing d :: rest)) :
    (within d scan).Yields (.opening d :: whole) wanted rest := by
  refine yields_ahead fun lexemes lexed => ?_
  have opens : Ahead.opening d lexemes := by
    obtain ⟨left, -, -, rfl⟩ := lexed
    exact beq_self_eq_true d
  rw [if_neg (by simp [opens])]
  refine yields_take_bind apart_opening (body.bind fun a good => ?_)
  refine (reaches_finish ended_closing).bind fun _ _ => ?_
  exact yields_take_bind apart_closing (yields_pure good)

theorem reaches_emit {pieces : List Piece} : (emit pieces).Reaches rest rest :=
  fun cursor lexed =>
    ⟨(), { cursor with seen := pieces.reverse ++ cursor.seen }, rfl, trivial, lexed⟩

theorem Yields.captured (yields : scan.Yields whole wanted rest) :
    (captured scan).Yields whole (fun found => wanted found.1) rest := by
  intro cursor lexed
  obtain ⟨a, inner, reads, good, left⟩ := yields ⟨cursor.rest, []⟩ lexed
  exact ⟨(a, _), _, reads_captured.mpr ⟨inner, reads, rfl, rfl⟩, good, left⟩

theorem Yields.keeping (yields : scan.Yields whole wanted rest) :
    (keeping scan).Yields whole (fun found => wanted found.1) rest :=
  yields.captured.bind fun _ good => reaches_emit.bind fun _ _ => yields_pure good

/-- A scan that opens keeps the token that stands ahead. -/
theorem Yields.keeping_opens (yields : scan.Yields (token :: whole) wanted rest)
    (opens : scan.Opens) : (Scan.keeping scan).Yields (token :: whole)
      (fun found => wanted found.1 ∧ .token token ∈ found.2) rest := by
  have first : (Scan.captured scan).Yields (token :: whole)
      (fun found => wanted found.1 ∧ .token token ∈ found.2) rest := by
    intro cursor lexed
    obtain ⟨a, inner, reads, good, left⟩ := yields ⟨cursor.rest, []⟩ lexed
    refine ⟨(a, _), _, reads_captured.mpr ⟨inner, reads, rfl, rfl⟩, ⟨good, ?_⟩, left⟩
    obtain ⟨lexeme, behind, here, seen⟩ := opens _ a inner reads
    obtain ⟨position, -, -, same⟩ := lexed
    rw [same] at here
    obtain rfl := congrArg Lexeme.token (List.cons.inj here).1
    exact List.mem_reverse.mpr (seen.subset List.mem_cons_self)
  exact first.bind fun found good => reaches_emit.bind fun _ _ => yields_pure good

theorem run_attempt (cursor : Cursor) : run (attempt scan) cursor =
    .ok (match run scan cursor with
      | .ok (a, after) => (some a, after)
      | .error _ => (none, cursor)) := by
  unfold run attempt
  cases scan cursor <;> rfl

theorem Yields.attempt (yields : scan.Yields whole wanted rest) :
    (attempt scan).Yields whole (fun found => ∃ a, found = some a ∧ wanted a) rest := by
  intro cursor lexed
  obtain ⟨a, after, reads, good, left⟩ := yields cursor lexed
  refine ⟨some a, after, ?_, ⟨a, rfl, good⟩, left⟩
  unfold Reads at reads ⊢
  rw [run_attempt, reads]

theorem run_look (cursor : Cursor) : run (look scan) cursor =
    .ok ((run scan cursor).toOption.map Prod.fst, cursor) := by
  unfold run look
  cases scan cursor <;> rfl

def Refuses (scan : Scan α) (whole : Code) : Prop :=
  ∀ cursor : Cursor, whole.Lexed cursor.rest → ∀ a after, ¬scan.Reads cursor a after

theorem Refuses.bind (refuses : scan.Refuses whole) : (scan >>= next).Refuses whole := by
  intro cursor lexed b after reads
  obtain ⟨a, middle, first, -⟩ := reads_bind.mp reads
  exact refuses cursor lexed a middle first

theorem Refuses.discard (refuses : scan.Refuses whole) : (Functor.discard scan).Refuses whole := by
  intro cursor lexed _ after reads
  obtain ⟨a, first⟩ := reads_discard.mp reads
  exact refuses cursor lexed a after first

theorem Refuses.attempt (refuses : scan.Refuses rest) :
    (Scan.attempt scan).Yields rest (· = none) rest := by
  intro cursor lexed
  refine ⟨none, cursor, ?_, rfl, lexed⟩
  unfold Reads
  rw [run_attempt]
  cases found : run scan cursor with
  | error => rfl
  | ok result => exact absurd found (refuses cursor lexed result.1 result.2)

theorem Yields.bind_refuses (first : scan.Yields whole wanted middle)
    (second : ∀ a, wanted a → (next a).Refuses middle) : (scan >>= next).Refuses whole := by
  intro cursor lexed b after reads
  obtain ⟨a, between, read, good, left⟩ := first cursor lexed
  obtain ⟨other, elsewhere, again, later⟩ := reads_bind.mp reads
  obtain ⟨rfl, rfl⟩ := Prod.mk.inj (Except.ok.inj (again.symm.trans read))
  exact second other good elsewhere left b after later

theorem refuses_ahead {next : List Lexeme → Scan β}
    (here : ∀ lexemes, whole.Lexed lexemes → (next lexemes).Refuses whole) :
    (ahead >>= next).Refuses whole := by
  intro cursor lexed b after reads
  exact here cursor.rest lexed cursor lexed b after (reads_ahead_bind.mp reads)

theorem refuses_failAt {message : String} : (failAt message : Scan α).Refuses whole :=
  fun _ _ _ _ reads => absurd reads not_reads_failAt

theorem refuses_ident (unnamed : ∀ lexemes, whole.Lexed lexemes → Ahead.ident lexemes = false) :
    ident.Refuses whole := by
  intro cursor lexed x after reads
  obtain ⟨free, word⟩ := reads_ident.mp reads
  obtain ⟨lexeme, token, left, -⟩ := reads_anyWord.mp word
  have named := unnamed cursor.rest lexed
  rw [Ahead.ident, Ahead.word?_eq_some.mpr ⟨lexeme, _, left, token⟩, Option.any_some, free] at named
  cases named

theorem refuses_expectWord {name : String} (other : Unworded name whole) :
    (expectWord name).Refuses whole := by
  refine refuses_ahead fun lexemes lexed => ?_
  rw [other.word_eq lexed]
  exact refuses_failAt

theorem yields_ahead_here : ahead.Yields whole whole.Lexed whole :=
  fun cursor lexed => ⟨cursor.rest, cursor, reads_ahead.mpr ⟨rfl, rfl⟩, lexed, lexed⟩

theorem Yields.look (yields : scan.Yields whole wanted rest) :
    (look scan).Yields whole (fun found => ∃ a, found = some a ∧ wanted a) whole := by
  intro cursor lexed
  obtain ⟨a, after, reads, good, -⟩ := yields cursor lexed
  refine ⟨some a, cursor, ?_, ⟨a, rfl, good⟩, lexed⟩
  unfold Reads at reads ⊢
  rw [run_look, reads]
  rfl

theorem Refuses.look (refuses : scan.Refuses whole) :
    (Scan.look scan).Yields whole (· = none) whole := by
  intro cursor lexed
  refine ⟨none, cursor, ?_, rfl, lexed⟩
  unfold Reads
  rw [run_look]
  cases found : run scan cursor with
  | error => rfl
  | ok result => exact absurd found (refuses cursor lexed result.1 result.2)

/-- What is repeated on a value gets to the end if each round gives none there, or gives a value
with which it goes on from closer to the end. -/
theorem yields_folded {step : α → Scan (Option α)} (stands : α → Code → Prop)
    (round : ∀ a whole, stands a whole →
      (wanted a ∧ (step a).Yields whole (· = none) rest) ∨
        ∃ middle : Code, middle.length < whole.length ∧
          (step a).Yields whole (fun next => ∃ b, next = some b ∧ stands b middle) middle)
    {a : α} (here : stands a whole) : (folded step a).Yields whole wanted rest := by
  have rounds (fuel : Nat) : ∀ {a whole}, stands a whole → whole.length < fuel →
      (foldRounds fuel step a).Yields whole wanted rest := by
    induction fuel with
    | zero => exact fun _ enough => absurd enough (Nat.not_lt_zero _)
    | succ fuel ih =>
      intro a whole here enough
      rcases round a whole here with ⟨good, stops⟩ | ⟨middle, shorter, goes⟩
      · refine stops.bind fun next none => ?_
        subst none
        exact yields_pure good
      · refine goes.bind fun next some => ?_
        obtain ⟨b, rfl, there⟩ := some
        exact ih there (by omega)
  refine yields_ahead fun lexemes lexed => ?_
  rw [lexed.length_eq]
  exact rounds _ here (Nat.lt_succ_self _)

/-- What is repeated gets to the end if each round stops there or goes on from closer to the end. -/
theorem reaches_repeated {step : Scan Bool} (stands : Code → Prop)
    (round : ∀ whole, stands whole → step.Yields whole (· = false) rest ∨
      ∃ middle : Code, middle.length < whole.length ∧ stands middle ∧
        step.Yields whole (· = true) middle)
    (here : stands whole) : (repeated step).Reaches whole rest := by
  have go (fuel : Nat) : ∀ {whole}, stands whole → whole.length < fuel →
      (rounds fuel step).Reaches whole rest := by
    induction fuel with
    | zero => exact fun _ enough => absurd enough (Nat.not_lt_zero _)
    | succ fuel ih =>
      intro whole here enough
      rcases round whole here with stops | ⟨middle, shorter, there, goes⟩
      · refine stops.bind fun next stop => ?_
        subst stop
        exact reaches_pure
      · refine goes.bind fun next more => ?_
        subst more
        exact ih there (by omega)
  refine yields_ahead fun lexemes lexed => ?_
  rw [lexed.length_eq]
  exact go _ here (Nat.lt_succ_self _)

/-- A fold that has nothing to do. -/
theorem yields_folded_stop {step : α → Scan (Option α)} {a : α} (good : wanted a)
    (stops : (step a).Yields rest (· = none) rest) : (folded step a).Yields rest wanted rest :=
  yields_folded (fun b code => b = a ∧ code = rest)
    (by rintro _ _ ⟨rfl, rfl⟩; exact .inl ⟨good, stops⟩) ⟨rfl, rfl⟩

/-- An item between commas: it begins with a token that is no closing bracket, and it is read up to
the next comma or the end. -/
structure Entry (item : Scan α) (code : Code) : Prop where
  begins : ∀ rest, ¬Ended (code ++ rest)
  reads : ∀ rest, EndsEntry rest → item.Reaches (code ++ rest) rest

theorem reaches_separated {item : Scan Unit} {codes : List Code}
    (entries : ∀ code ∈ codes, Entry item code) (ended : Ended rest) :
    (separated "," item).Reaches (commas codes ++ rest) rest := by
  refine reaches_repeated
    (fun whole => ∃ codes, (∀ code ∈ codes, Entry item code) ∧ whole = commas codes ++ rest) ?_
    ⟨codes, entries, rfl⟩
  rintro _ ⟨codes, entries, rfl⟩
  match codes with
  | [] =>
    refine .inl (yields_ahead fun lexemes lexed => ?_)
    rw [if_pos ((finished_iff lexed).mpr ended)]
    exact yields_pure rfl
  | [code] =>
    have entry := entries code List.mem_cons_self
    rw [commas_singleton]
    refine .inl (yields_ahead fun lexemes lexed => ?_)
    rw [finished_eq_false lexed (entry.begins rest)]
    refine (entry.reads rest (.inl ended)).bind fun _ _ => yields_ahead fun lexemes lexed => ?_
    rw [if_pos ((finished_iff lexed).mpr ended)]
    exact yields_pure rfl
  | code :: next :: others =>
    have entry := entries code List.mem_cons_self
    have comma : Apart (.punct ',') (commas (next :: others) ++ rest) :=
      apart_of_not_mem (by decide)
    rw [commas_cons_cons, List.append_assoc, List.cons_append]
    refine .inr ⟨commas (next :: others) ++ rest, ?_, ⟨_, fun code member =>
      entries code (List.mem_cons_of_mem _ member), rfl⟩, yields_ahead fun lexemes lexed => ?_⟩
    · simp only [List.length_append, List.length_cons]
      omega
    · rw [finished_eq_false lexed (entry.begins _)]
      refine (entry.reads _ (.inr rfl)).bind fun _ _ => yields_ahead fun lexemes lexed => ?_
      rw [finished_eq_false lexed (by simp [Ended])]
      exact (reaches_expectSign rfl comma).bind fun _ _ => yields_pure rfl

theorem reaches_listed {item : Scan α} {codes : List Code}
    (entries : ∀ code ∈ codes, Entry item code) (ended : Ended rest) :
    (listed "," item).Reaches (commas codes ++ rest) rest := by
  refine Yields.map (?_ : Reaches _ _ _) fun _ _ => trivial
  refine yields_folded (fun found whole => found.2 = false ∧ whole = rest ∨
    found.2 = true ∧ ∃ codes, (∀ code ∈ codes, Entry item code) ∧ whole = commas codes ++ rest) ?_
    (.inr ⟨rfl, codes, entries, rfl⟩)
  rintro ⟨found, more⟩ _ (⟨stopped, rfl⟩ | ⟨going, codes, entries, rfl⟩)
  · obtain rfl : more = false := stopped
    exact .inl ⟨trivial, yields_ahead fun _ _ => yields_pure rfl⟩
  obtain rfl : more = true := going
  match codes with
  | [] =>
    refine .inl ⟨trivial, yields_ahead fun lexemes lexed => ?_⟩
    rw [commas_nil, List.nil_append] at lexed
    rw [(finished_iff lexed).mpr ended]
    exact yields_pure rfl
  | [code] =>
    have entry := entries code List.mem_cons_self
    rw [commas_singleton]
    refine .inr ⟨rest, ?_, yields_ahead fun lexemes lexed => ?_⟩
    · have some : code ≠ [] := by
        rintro rfl
        exact entry.begins rest ended
      simpa using List.length_pos_iff.mpr some
    · rw [finished_eq_false lexed (entry.begins rest)]
      refine (entry.reads rest (.inl ended)).bind fun _ _ => yields_ahead fun lexemes lexed => ?_
      rw [if_pos ((finished_iff lexed).mpr ended)]
      exact yields_pure ⟨_, rfl, .inl ⟨rfl, rfl⟩⟩
  | code :: next :: others =>
    have entry := entries code List.mem_cons_self
    have comma : Apart (.punct ',') (commas (next :: others) ++ rest) :=
      apart_of_not_mem (by decide)
    rw [commas_cons_cons, List.append_assoc, List.cons_append]
    refine .inr ⟨commas (next :: others) ++ rest, ?_, yields_ahead fun lexemes lexed => ?_⟩
    · simp only [List.length_append, List.length_cons]
      omega
    · rw [finished_eq_false lexed (entry.begins _)]
      refine (entry.reads _ (.inr rfl)).bind fun _ _ => yields_ahead fun lexemes lexed => ?_
      rw [finished_eq_false lexed (by simp [Ended])]
      refine (reaches_expectSign rfl comma).bind
        fun _ _ => yields_pure ⟨_, rfl, .inr ⟨rfl, _, ?_, rfl⟩⟩
      exact fun code member => entries code (List.mem_cons_of_mem _ member)

end Scan
end EntityGen
