import EntityGen.Grammar.ItemRules
import EntityGen.Proofs.Token.Reaching

/-! Paths, bounds and types that are read wherever they stand. -/
namespace EntityGen

/-- A name that may be a step of a path. -/
def Ident.IsStep (x : Ident) : Prop :=
  x.isKeyword = false ∨
    x ∈ (["super", "self", "Self", "crate"].map fun name => (⟨name, false⟩ : Ident))

instance (x : Ident) : Decidable x.IsStep := inferInstanceAs (Decidable (_ ∨ _))

namespace Code

/-- Names with a double colon behind each of them, and what stands behind that. -/
def below : List Ident → Code → Code
  | [], code => code
  | x :: names, code => .word x :: .punct ':' :: .punct ':' :: below names code

def led (leading : Bool) (code : Code) : Code :=
  if leading then .punct ':' :: .punct ':' :: code else code

def IsPath (code : Code) : Prop :=
  ∃ leading names last, (∀ x ∈ names, Ident.IsStep x) ∧ last.IsStep ∧
    code = led leading (below names [.word last])

/-- What stands there does not go on with a path. -/
def EndsPath (rest : Code) : Prop := ∀ token ∈ rest.head?, token ∉ sign ['<', ':', '!']

variable {names : List Ident} {leading : Bool} {code rest : Code} {x last : Ident}

@[simp] theorem below_append : below names code ++ rest = below names (code ++ rest) := by
  induction names with
  | nil => rfl
  | cons x names ih => simp [below, ih]

theorem length_le_below : code.length ≤ (below names code).length := by
  induction names with
  | nil => exact Nat.le_refl _
  | cons x names ih =>
    simp only [below, List.length_cons]
    omega

theorem length_le_led : code.length ≤ (led leading code).length := by
  cases leading with
  | true => exact Nat.le_add_right _ 2
  | false => exact Nat.le_refl _

theorem length_le_commas {codes : List Code} (member : code ∈ codes) :
    code.length ≤ (commas codes).length := by
  induction codes with
  | nil => cases member
  | cons first others ih =>
    cases others with
    | nil =>
      obtain rfl := List.mem_singleton.mp member
      exact Nat.le_of_eq (congrArg List.length (commas_singleton code).symm)
    | cons next others =>
      rw [commas_cons_cons, List.length_append, List.length_cons]
      rcases List.mem_cons.mp member with rfl | member
      · omega
      · have shorter := ih member
        omega

@[simp] theorem led_append : led leading code ++ rest = led leading (code ++ rest) := by
  cases leading <;> rfl

theorem below_concat :
    below (names ++ [x]) code = below names (.word x :: .punct ':' :: .punct ':' :: code) := by
  induction names with
  | nil => rfl
  | cons x names ih => simp [below, ih]

theorem isPath_word (step : x.IsStep) : IsPath [.word x] :=
  ⟨false, [], x, List.forall_mem_nil _, step, rfl⟩

theorem IsPath.step (path : IsPath code) (step : x.IsStep) : IsPath (code.step x) := by
  obtain ⟨leading, names, last, steps, named, rfl⟩ := path
  refine ⟨leading, names ++ [last], x, ?_, step, by simp [Code.step, below_concat, sign]⟩
  simpa [or_imp, forall_and] using ⟨steps, named⟩

theorem IsPath.foldl_step (path : IsPath code) (steps : ∀ x ∈ names, x.IsStep) :
    IsPath (names.foldl Code.step code) := by
  induction names generalizing code with
  | nil => exact path
  | cons x names ih =>
    obtain ⟨step, steps⟩ := List.forall_mem_cons.mp steps
    exact ih (path.step step) steps

theorem isPath_rooted {first : String} {later : List String}
    (steps : ∀ name ∈ first :: later, Ident.IsStep ⟨name, false⟩) :
    IsPath (rooted (first :: later)) := by
  have all : rooted (first :: later) =
      (later.map fun name => ⟨name, false⟩).foldl Code.step (led true [.plain first]) := by
    have spread (code : Code) : code ++ rooted later =
        (later.map fun name => ⟨name, false⟩).foldl Code.step code := by
      induction later generalizing code with
      | nil => exact List.append_nil code
      | cons name later ih =>
        rw [List.map_cons, List.foldl_cons, ← ih fun name member => steps name (by
          rcases List.mem_cons.mp member with rfl | member <;> simp [*])]
        simp [rooted, Code.step, Token.plain]
    exact spread (led true [.plain first])
  obtain ⟨step, steps⟩ := List.forall_mem_cons.mp steps
  rw [all]
  exact IsPath.foldl_step ⟨true, [], _, List.forall_mem_nil _, step, rfl⟩
    (List.forall_mem_map.mpr steps)

theorem EndsPath.unsigned (ends : EndsPath rest) {s : String} (written : s ≠ "")
    (listed : ∀ c ∈ s.toList.head?, c ∈ ['<', ':', '!']) : Scan.Unsigned s rest :=
  Scan.unsigned_of_head written fun c head same =>
    ends _ same (List.mem_map_of_mem (listed c head))

end Code

namespace Rules

open Scan Code

variable {g : Rules} {x last : Ident} {rest tail whole : Code} {inExpr : Bool}

/-- No arguments of a step stand there. -/
def Argless (rest : Code) : Prop := ∀ lexemes, rest.Lexed lexemes →
  Ahead.sign "<" lexemes = false ∧
    (Ahead.sign "::" lexemes && Ahead.sign "<" (lexemes.drop 2)) = false

theorem argless_of_endsPath (ends : EndsPath rest) : Argless rest := fun lexemes lexed =>
  ⟨ends.unsigned (by decide) (by decide) lexemes lexed,
    by rw [ends.unsigned (by decide) (by decide) lexemes lexed, Bool.false_and]⟩

theorem argless_of_colons (other : rest.head? ≠ some (.punct ':'))
    (angle : rest.head? ≠ some (.punct '<')) : Argless (.punct ':' :: .punct ':' :: rest) := by
  intro lexemes lexed
  rw [lexed.pair (by decide) (fun _ => other)]
  refine ⟨rfl, ?_⟩
  have none : Unsigned "<" rest := unsigned_of_head (by decide) fun c head same => by
    obtain rfl : '<' = c := Option.some.inj head
    exact angle same
  rw [List.drop_succ_cons, List.drop_succ_cons, List.drop_zero, none _ (lexed_lexemes rest),
    Bool.and_false]

theorem yields_segment (step : x.IsStep) (bare : Argless rest) :
    (segment g inExpr).Yields (.word x :: rest) (· = .bare x) rest := by
  have named : (do
      let rest ← ahead
      if (!inExpr && Ahead.sign "<" rest && !Ahead.sign "<=" rest) ||
          (Ahead.sign "::" rest && Ahead.sign "<" (rest.drop 2)) then
        return ⟨x, ← angleArgs g⟩
      else return .bare x : Scan Segment).Yields rest (· = .bare x) rest := by
    refine yields_ahead fun lexemes lexed => ?_
    obtain ⟨noAngle, noColons⟩ := bare lexemes lexed
    rw [noAngle, noColons, Bool.and_false, Bool.false_and, Bool.false_or, if_neg Bool.false_ne_true]
    exact yields_pure rfl
  have word : anyWord.Yields (.word x :: rest) (· = x) rest := yields_anyWord
  refine yields_ahead_cons fun _ _ _ => ?_
  rcases step with free | listed
  · have other := fun name => @Ahead.beq_of_not_keyword name x free
    rw [if_neg (by simp (disch := decide) [other])]
    refine yields_ahead_cons fun _ _ _ => ?_
    rw [if_neg (by simp (disch := decide) [other])]
    exact (yields_ident free).bind fun _ same => same ▸ named
  · simp only [List.map_cons, List.map_nil, List.mem_cons, List.not_mem_nil, or_false] at listed
    rcases listed with rfl | rfl | rfl | rfl
    · exact word.bind fun _ same => yields_pure (by rw [same])
    · exact word.bind fun _ same => yields_pure (by rw [same])
    · refine yields_ahead_cons fun _ _ _ => ?_
      exact word.bind fun _ same => same ▸ named
    · exact word.bind fun _ same => yields_pure (by rw [same])

theorem below_eq_cons (names : List Ident) (last : Ident) (tail : Code) :
    ∃ x later, below names (.word last :: tail) = .word x :: later := by
  cases names with
  | nil => exact ⟨last, tail, rfl⟩
  | cons x names => exact ⟨x, _, rfl⟩

theorem below_head {names : List Ident} {c : Char} :
    (below names (.word last :: tail)).head? ≠ some (.punct c) := by
  obtain ⟨x, later, same⟩ := below_eq_cons names last tail
  rw [same]
  nofun

theorem yields_moreSegments_stop {segments : List Segment} (ends : EndsPath rest) :
    (moreSegments g inExpr segments).Yields rest (· = segments) rest := by
  refine yields_folded_stop rfl (yields_ahead fun lexemes lexed => ?_)
  rw [ends.unsigned (by decide) (by decide) lexemes lexed]
  exact yields_pure rfl

/-- A path is read if its last step is, with whatever belongs to that step. -/
theorem reaches_path {leading : Bool} {names : List Ident} (steps : ∀ x ∈ names, x.IsStep)
    (final : (segment g inExpr).Reaches (.word last :: tail) rest) (ends : EndsPath rest) :
    (path g inExpr).Reaches (led leading (below names (.word last :: tail))) rest := by
  -- one step of the path, and the steps behind it
  have walk {names : List Ident} (steps : ∀ x ∈ names, x.IsStep) :
      (segment g inExpr).Reaches (below names (.word last :: tail)) rest ∨
        ∃ later, (∀ x ∈ later, Ident.IsStep x) ∧
          (segment g inExpr).Reaches (below names (.word last :: tail))
            (.punct ':' :: .punct ':' :: below later (.word last :: tail)) := by
    cases names with
    | nil => exact .inl final
    | cons x later =>
      obtain ⟨step, steps⟩ := List.forall_mem_cons.mp steps
      exact .inr ⟨later, steps,
        (yields_segment step (argless_of_colons below_head below_head)).reaches⟩
  have more {names : List Ident} (steps : ∀ x ∈ names, x.IsStep) (segments : List Segment) :
      (moreSegments g inExpr segments).Reaches
        (.punct ':' :: .punct ':' :: below names (.word last :: tail)) rest := by
    refine yields_folded (fun _ whole => whole = rest ∨ ∃ names, (∀ x ∈ names, Ident.IsStep x) ∧
      whole = .punct ':' :: .punct ':' :: below names (.word last :: tail)) ?_
      (.inr ⟨names, steps, rfl⟩)
    rintro found _ (rfl | ⟨names, steps, rfl⟩)
    · refine .inl ⟨trivial, yields_ahead fun lexemes lexed => ?_⟩
      rw [ends.unsigned (by decide) (by decide) lexemes lexed]
      exact yields_pure rfl
    obtain ⟨middle, standing, read⟩ : ∃ middle, (middle = rest ∨ ∃ later, (∀ x ∈ later, x.IsStep) ∧
        middle = .punct ':' :: .punct ':' :: below later (.word last :: tail)) ∧
        (segment g inExpr).Reaches (below names (.word last :: tail)) middle := by
      rcases walk steps with read | ⟨later, steps, read⟩
      · exact ⟨rest, .inl rfl, read⟩
      · exact ⟨_, .inr ⟨later, steps, rfl⟩, read⟩
    refine .inr ⟨middle,
      Nat.lt_of_le_of_lt read.length_le (by simp only [List.length_cons]; omega), ?_⟩
    obtain ⟨x, later, same⟩ := below_eq_cons names last tail
    rw [same] at read ⊢
    refine yields_ahead_pair (by decide) (fun _ => nofun) ?_
    rw [if_pos (by rfl)]
    refine (reaches_expectColons (by simp)).bind fun _ _ => read.bind fun y _ => ?_
    exact yields_pure ⟨_, rfl, standing⟩
  have unled (leading : Bool) : (do
      let first ← segment g inExpr
      return ⟨leading, ← moreSegments g inExpr [first]⟩ : Scan Path).Reaches
        (below names (.word last :: tail)) rest := by
    rcases walk steps with read | ⟨later, steps, read⟩
    · exact read.bind fun first _ => (yields_moreSegments_stop ends).bind fun _ _ => reaches_pure
    · exact read.bind fun first _ => (more steps [first]).bind fun _ _ => reaches_pure
  cases leading with
  | true => exact (yields_optionalColons below_head).bind fun leading _ => unled leading
  | false =>
    have absent : Unsigned "::" (below names (.word last :: tail)) :=
      unsigned_of_head (by decide) fun _ _ => below_head
    exact (yields_optionalSign_absent absent).bind fun leading _ => unled leading

theorem yields_path_word (step : x.IsStep) (ends : EndsPath rest) :
    (path g inExpr).Yields (.word x :: rest) (· = ⟨false, [.bare x]⟩) rest := by
  refine (yields_optionalSign_absent (unsigned_of_head (by decide) (by simp))).bind fun _ led => ?_
  refine (yields_segment step (argless_of_endsPath ends)).bind fun _ first => ?_
  refine (yields_moreSegments_stop ends).bind fun _ only => ?_
  exact yields_pure (by rw [led, only, first])

theorem nameAhead_of_isStep (step : x.IsStep) {joint : Bool} {behind : List Lexeme} :
    nameAhead (⟨.word x, joint, .none⟩ :: behind) = true := by
  rcases step with free | listed
  · simp [nameAhead, free]
  · simp only [List.map_cons, List.map_nil, List.mem_cons, List.not_mem_nil, or_false] at listed
    rcases listed with rfl | rfl | rfl | rfl <;> rfl

/-- A path of names is read where only names may stand in it. -/
theorem reaches_namePath (path : IsPath whole) (ends : EndsPath rest) :
    namePath.Reaches (whole ++ rest) rest := by
  obtain ⟨leading, names, last, steps, step, rfl⟩ := path
  have absent : Unsigned "::" rest := ends.unsigned (by decide) (by decide)
  have walk : (folded nextPathName ([], true)).Reaches (below names (.word last :: rest)) rest := by
    refine yields_folded (fun found whole => found.2 = false ∧ whole = rest ∨ found.2 = true ∧
      ∃ names, (∀ x ∈ names, Ident.IsStep x) ∧ whole = below names (.word last :: rest)) ?_
      (.inr ⟨rfl, names, steps, rfl⟩)
    rintro ⟨found, more⟩ _ (⟨done, rfl⟩ | ⟨going, names, steps, rfl⟩)
    · obtain rfl : more = false := done
      exact .inl ⟨trivial, yields_pure rfl⟩
    obtain rfl : more = true := going
    cases names with
    | nil =>
      refine .inr ⟨rest, Nat.lt_succ_self _, yields_ahead_cons fun joint behind _ => ?_⟩
      rw [nameAhead_of_isStep step]
      refine yields_anyWord.bind fun name _ => (yields_optionalSign_absent absent).bind
        fun more none => ?_
      exact yields_pure ⟨_, rfl, .inl ⟨none, rfl⟩⟩
    | cons x names =>
      obtain ⟨step, steps⟩ := List.forall_mem_cons.mp steps
      refine .inr ⟨below names (.word last :: rest), ?_, yields_ahead_cons fun joint behind _ => ?_⟩
      · simp only [below, List.length_cons]
        omega
      rw [nameAhead_of_isStep step]
      refine yields_anyWord.bind fun name _ => (yields_optionalColons below_head).bind
        fun more present => ?_
      exact yields_pure ⟨_, rfl, .inr ⟨present, names, steps, rfl⟩⟩
  have unled (leading : Bool) : (do
      if !nameAhead (← ahead) then discard ident
      let names ← folded nextPathName ([], true)
      return ⟨leading, names.1⟩ : Scan NamePath).Reaches (below names (.word last :: rest))
        rest := by
    have named : ∃ x later, below names (.word last :: rest) = .word x :: later ∧ x.IsStep := by
      cases names with
      | nil => exact ⟨last, rest, rfl, step⟩
      | cons x names => exact ⟨x, _, rfl, steps x List.mem_cons_self⟩
    obtain ⟨x, later, same, step⟩ := named
    rw [same] at walk ⊢
    refine yields_ahead_cons fun joint behind _ => ?_
    rw [nameAhead_of_isStep step]
    exact walk.bind fun names _ => reaches_pure
  rw [led_append, below_append]
  cases leading with
  | true => exact (yields_optionalColons below_head).bind fun leading _ => unled leading
  | false =>
    have absent : Unsigned "::" (below names (.word last :: rest)) :=
      unsigned_of_head (by decide) fun _ _ => below_head
    exact (yields_optionalSign_absent absent).bind fun leading _ => unled leading

/-- Where neither a name nor a double colon stands, no path of names does. -/
theorem refuses_namePath (unled : Unsigned "::" whole)
    (unnamed : ∀ lexemes, whole.Lexed lexemes → nameAhead lexemes = false) :
    namePath.Refuses whole := by
  refine (yields_optionalSign_absent unled).bind_refuses fun leading _ =>
    refuses_ahead fun lexemes lexed => ?_
  rw [unnamed lexemes lexed]
  have other : ident.Refuses whole := refuses_ident fun lexemes lexed => by
    have named := unnamed lexemes lexed
    rw [nameAhead, Bool.or_eq_false_iff] at named
    exact named.1
  exact other.discard.bind

end Rules

namespace Code

def BeginsPath (code : Code) : Prop :=
  (∃ x later, code = .word x :: later ∧ x.IsStep) ∨
    ∃ x later, code = .punct ':' :: .punct ':' :: .word x :: later

/-- Words that begin no type, or that may stand before one. -/
def untyped : List Ident := ["true", "false", "mut", "pub"].map fun name => ⟨name, false⟩

def BeginsType (code : Code) : Prop :=
  (∃ x later, code = .word x :: later ∧ x ∉ untyped) ∨
    (∃ x later, code = .punct ':' :: .punct ':' :: .word x :: later) ∨
    ∃ c later, code = .punct c :: later ∧ c ∈ ['<', '&']

def EndsType (rest : Code) : Prop :=
  ¬rest.Doubled ∧ ∀ token ∈ rest.head?, token ∈ sign [',', '>', ';', '='] ++
    [.closing .round, .closing .square, .closing .curly, .opening .curly, .plain "as", .plain "for"]

def EndsArg (rest : Code) : Prop :=
  rest.head? = some (.punct ',') ∨ rest.head? = some (.punct '>')

variable {rest code : Code} {names : List Ident} {leading : Bool} {last : Ident}

theorem beginsPath_led (steps : ∀ x ∈ names, x.IsStep) (step : last.IsStep) :
    BeginsPath (led leading (below names (.word last :: code))) := by
  cases leading with
  | true =>
    obtain ⟨x, later, same⟩ := Rules.below_eq_cons names last code
    exact .inr ⟨x, later, by rw [same]; rfl⟩
  | false =>
    cases names with
    | nil => exact .inl ⟨last, code, rfl, step⟩
    | cons x names => exact .inl ⟨x, _, rfl, steps x List.mem_cons_self⟩

theorem not_mem_untyped {x : Ident} (step : x.IsStep) : x ∉ untyped := by
  intro member
  rcases step with free | listed
  · have keyword : ∀ x ∈ untyped, x.isKeyword = true := by decide
    rw [keyword x member] at free
    cases free
  · have apart : ∀ x ∈ untyped,
        x ∉ (["super", "self", "Self", "crate"].map fun name => (⟨name, false⟩ : Ident)) := by
      decide
    exact apart x member listed

theorem BeginsPath.unangled (begins : BeginsPath code) : Scan.Unsigned "<" code := by
  refine Scan.unsigned_of_head (by decide) fun c head => ?_
  obtain rfl : '<' = c := Option.some.inj head
  rcases begins with ⟨x, later, rfl, -⟩ | ⟨x, later, rfl⟩ <;> simp

theorem BeginsPath.beginsType (begins : BeginsPath code) : BeginsType code := by
  rcases begins with ⟨x, later, rfl, step⟩ | standing
  · exact .inl ⟨x, later, rfl, not_mem_untyped step⟩
  · exact .inr (.inl standing)

theorem not_doubled_of_head (other : code.head? ≠ some (.punct '=')) : ¬Doubled code := by
  rintro (⟨later, rfl⟩ | ⟨later, rfl⟩) <;> exact other rfl

theorem apart_of_head (other : ∀ c, code.head? ≠ some (.punct c)) : Apart (.punct c) code :=
  ⟨fun _ same => absurd same (other c), fun _ => not_doubled_of_head (other _)⟩

theorem BeginsType.head_ne (begins : BeginsType code) {c : Char} (other : c ∉ [':', '<', '&']) :
    code.head? ≠ some (.punct c) := by
  intro same
  rcases begins with ⟨x, later, rfl, -⟩ | ⟨x, later, rfl⟩ | ⟨d, later, rfl, listed⟩
  · cases same
  · obtain rfl := Token.punct.inj (Option.some.inj same)
    exact other (by decide)
  · obtain rfl := Token.punct.inj (Option.some.inj same)
    exact other (List.mem_cons_of_mem _ listed)

theorem BeginsType.unsigned (begins : BeginsType code) {s : String} {c : Char} {later : List Char}
    (spelled : s.toList = c :: later) (other : c ∉ [':', '<', '&']) : Scan.Unsigned s code := by
  refine Scan.unsigned_of_head (by rintro rfl; cases spelled) fun d head => ?_
  rw [spelled] at head
  obtain rfl := Option.some.inj head
  exact begins.head_ne other

theorem BeginsType.unpublished (begins : BeginsType code) : Scan.Unworded "pub" code := by
  intro same
  rcases begins with ⟨x, later, rfl, other⟩ | ⟨x, later, rfl⟩ | ⟨c, later, rfl, -⟩
  · exact other (by rw [Token.word.inj (Option.some.inj same)]; decide)
  · cases same
  · cases same

theorem BeginsType.not_ended (begins : BeginsType code) : ¬Ended (code ++ rest) := by
  intro ended
  rcases begins with ⟨x, later, rfl, -⟩ | ⟨x, later, rfl⟩ | ⟨c, later, rfl, -⟩
  all_goals
    obtain ⟨d, same⟩ := ended _ rfl
    cases same

/-- A colon in front of a type stands for itself. -/
theorem BeginsType.apart_colon (begins : BeginsType code) : Apart (.punct ':') code := by
  refine ⟨fun _ same => ⟨rfl, ?_⟩, fun listed => absurd listed (by decide)⟩
  rcases begins with ⟨x, later, rfl, -⟩ | ⟨x, later, rfl⟩ | ⟨c, later, rfl, listed⟩
  · cases same
  · exact ⟨.word x :: later, rfl⟩
  · obtain rfl := Token.punct.inj (Option.some.inj same)
    exact absurd listed (by decide)

theorem BeginsType.append (begins : BeginsType code) : BeginsType (code ++ rest) := by
  rcases begins with ⟨x, later, rfl, other⟩ | ⟨x, later, rfl⟩ | ⟨c, later, rfl, listed⟩
  · exact .inl ⟨x, later ++ rest, rfl, other⟩
  · exact .inr (.inl ⟨x, later ++ rest, rfl⟩)
  · exact .inr (.inr ⟨c, later ++ rest, rfl, listed⟩)

theorem BeginsType.length_pos (begins : BeginsType code) : 0 < code.length := by
  rcases begins with ⟨x, later, rfl, -⟩ | ⟨x, later, rfl⟩ | ⟨c, later, rfl, -⟩ <;>
    exact Nat.succ_pos _

theorem EndsType.unsigned (ends : EndsType rest) {s : String} (written : s ≠ "")
    (other : ∀ c ∈ s.toList.head?, c ∉ [',', '>', ';', '=']) : Scan.Unsigned s rest := by
  refine Scan.unsigned_of_head written fun c head same => other c head ?_
  have listed := ends.2 _ same
  simpa [sign, Token.plain] using listed

theorem EndsType.endsPath (ends : EndsType rest) : EndsPath rest := by
  intro token here member
  have listed := ends.2 token here
  obtain ⟨c, angle, rfl⟩ := List.mem_map.mp member
  revert c
  simp [sign, Token.plain]

theorem EndsEntry.endsType (ends : EndsEntry rest) : EndsType rest := by
  rcases ends with ended | comma
  · refine ⟨not_doubled_of_head fun same => ?_, fun token here => ?_⟩
    · obtain ⟨d, same⟩ := ended _ same
      cases same
    · obtain ⟨d, rfl⟩ := ended token here
      cases d <;> decide
  · exact ⟨not_doubled_of_head (by simp [comma]), fun token here => by
      rw [comma] at here
      cases here
      decide⟩

/-- No arguments in parentheses stand behind a type. -/
theorem EndsType.noRound (ends : EndsType rest) (lexemes : List Lexeme)
    (lexed : rest.Lexed lexemes) :
    Rules.roundAhead lexemes = false := by
  have noColons : Scan.Unsigned "::" rest := ends.unsigned (by decide) (by decide)
  rw [Rules.roundAhead, noColons lexemes lexed, Bool.false_and, Bool.or_false]
  obtain ⟨left, -, -, rfl⟩ := lexed
  match rest with
  | .opening .round :: _ => exact absurd (ends.2 _ rfl) (by decide)
  | [] | .opening .square :: _ | .opening .curly :: _ | .closing _ :: _ | .word _ :: _ | .punct _ :: _
  | .literal _ :: _ | .lifetime _ :: _ => rfl

theorem EndsArg.endsType (ends : EndsArg rest) : EndsType rest := by
  refine ⟨not_doubled_of_head ?_, fun token here => ?_⟩
  · rcases ends with head | head <;> rw [head] <;> nofun
  · rcases ends with head | head <;> rw [head] at here <;> cases here <;> decide

end Code

namespace Rules

open Scan Code

variable {g : Rules} {x last : Ident} {rest tail whole code : Code} {inExpr plus : Bool}

/-- A type is read from a path, whatever the path is. -/
theorem yields_typeForm_path {wanted : Path → Prop} (begins : BeginsPath whole)
    (read : (path g false).Yields whole wanted rest) (ends : EndsType rest) :
    (typeForm g plus).Yields whole
      (fun form => ∃ path, wanted path ∧ form = .known (.path path.leading path.segments))
        rest := by
  have known : (pathType g plus).Yields whole
      (fun form => ∃ path, wanted path ∧ form = .known (.path path.leading path.segments))
        rest := by
    refine yields_ahead fun lexemes lexed => ?_
    rw [begins.unangled lexemes lexed, if_neg Bool.false_ne_true]
    refine read.bind fun found good => yields_ahead fun lexemes lexed => ?_
    have noMark := ends.unsigned (s := "!") (by decide) (by decide) lexemes lexed
    have noPlus := ends.unsigned (s := "+") (by decide) (by decide) lexemes lexed
    simp only [noMark, noPlus, Bool.false_and, Bool.and_false, Bool.false_eq_true, if_false]
    exact yields_pure ⟨found, good, rfl⟩
  rcases begins with ⟨x, later, rfl, free | listed⟩ | ⟨x, later, rfl⟩
  · have other := fun name => @Ahead.beq_of_not_keyword name x free
    refine yields_ahead_cons fun _ _ _ => ?_
    dsimp only
    rw [if_neg (by simp (disch := decide) [other]), if_neg (by simp [Ahead.opening]),
      if_neg (by simp (disch := decide) [other]), if_pos (by simp [free])]
    exact known
  · refine yields_ahead_cons fun _ _ _ => ?_
    simp only [List.map_cons, List.map_nil, List.mem_cons, List.not_mem_nil, or_false] at listed
    rcases listed with rfl | rfl | rfl | rfl <;> exact known
  · exact yields_ahead_pair (by decide) (by simp) known

end Rules

namespace Code

open Rules Scan

structure IsType (code : Code) : Prop where
  begins : BeginsType code
  reads : ∀ plus depth rest, code.length ≤ depth → EndsType rest →
    ((nested depth).ty plus).Reaches (code ++ rest) rest

/-- The code is read as a path wherever a type may stand. -/
structure IsTypePath (code : Code) : Prop where
  begins : ∀ rest, BeginsPath (code ++ rest)
  reads : ∀ depth rest, code.length ≤ depth + 1 → EndsType rest →
    (path (nested depth) false).Reaches (code ++ rest) rest

structure IsArg (code : Code) : Prop where
  begins : BeginsType code
  reads : ∀ depth rest, code.length ≤ depth → EndsArg rest →
    (argument (nested depth)).Reaches (code ++ rest) rest

variable {code rest : Code} {codes : List Code} {x last : Ident} {names : List Ident}
  {leading : Bool}

theorem isType_of_form (begins : BeginsType code)
    (form : ∀ plus depth rest, code.length ≤ depth + 1 → EndsType rest →
      (typeForm (nested depth) plus).Reaches (code ++ rest) rest) : IsType code where
  begins := begins
  reads plus depth rest enough ends := by
    have some := begins.length_pos
    cases depth with
    | zero => omega
    | succ depth => exact (form plus depth rest enough ends).captured.bind fun _ _ => reaches_pure

/-- What a path of names is read from, by a rule of paths. -/
theorem IsPath.reaches {inExpr : Bool} {g : Rules} (path : IsPath code) (ends : EndsPath rest) :
    (Rules.path g inExpr).Reaches (code ++ rest) rest := by
  obtain ⟨leading, names, last, steps, step, rfl⟩ := path
  rw [led_append, below_append]
  have final : (segment g inExpr).Yields (.word last :: rest) (· = .bare last) rest :=
    yields_segment step (argless_of_endsPath ends)
  exact reaches_path steps final.reaches ends

theorem IsPath.begins (path : IsPath code) : BeginsPath (code ++ rest) := by
  obtain ⟨leading, names, last, steps, step, rfl⟩ := path
  rw [led_append, below_append]
  exact beginsPath_led steps step

theorem IsPath.isTypePath (path : IsPath code) : IsTypePath code :=
  ⟨fun _ => path.begins, fun _ _ _ ends => path.reaches ends.endsPath⟩

theorem IsTypePath.isType (path : IsTypePath code) : IsType code :=
  isType_of_form (by simpa using (path.begins []).beginsType) fun _ depth rest enough ends =>
    (yields_typeForm_path (path.begins rest) (path.reads depth rest enough ends) ends).reaches

/-- A single name is read as a path of that name. -/
theorem yields_type_word (free : x.isKeyword = false) {plus : Bool} {depth : Nat} (some : 0 < depth)
    (ends : EndsType rest) :
    ((nested depth).ty plus).Yields (.word x :: rest) (· = .path false [.bare x]) rest := by
  obtain ⟨depth, rfl⟩ := Nat.exists_eq_succ_of_ne_zero (Nat.ne_of_gt some)
  have read : (path (nested depth) false).Yields (.word x :: rest) (· = ⟨false, [.bare x]⟩) rest :=
    yields_path_word (.inl free) ends.endsPath
  refine (yields_typeForm_path (.inl ⟨x, rest, rfl, .inl free⟩) read ends).captured.bind
    fun found form => ?_
  obtain ⟨_, rfl, same⟩ := form
  exact yields_pure (by rw [same])

/-- No constant, lifetime or bracket stands where a type begins. -/
theorem BeginsType.ahead (begins : BeginsType code) {lexemes : List Lexeme}
    (lexed : code.Lexed lexemes) :
    Ahead.literal lexemes = false ∧ Ahead.lifetime lexemes = false ∧
      ∀ d, Ahead.opening d lexemes = false := by
  rcases begins with ⟨x, later, rfl, other⟩ | ⟨x, later, rfl⟩ | ⟨c, later, rfl, listed⟩
  · obtain ⟨left, -, -, rfl⟩ := lexed
    simp only [untyped, List.map_cons, List.map_nil, List.mem_cons, List.not_mem_nil, or_false,
      not_or] at other
    refine ⟨?_, rfl, fun d => rfl⟩
    simp [lexemesFrom, Ahead.literal, Ahead.literalText?, other]
  · obtain ⟨left, -, -, rfl⟩ := lexed
    exact ⟨rfl, rfl, fun d => rfl⟩
  · obtain ⟨left, -, -, rfl⟩ := lexed
    simp only [List.mem_cons, List.not_mem_nil, or_false] at listed
    rcases listed with rfl | rfl <;> exact ⟨rfl, rfl, fun d => rfl⟩

theorem IsType.isArg (type : IsType code) : IsArg code where
  begins := type.begins
  reads depth rest enough ends := by
    refine yields_ahead fun lexemes lexed => ?_
    obtain ⟨noLiteral, noLifetime, noBracket⟩ := type.begins.append.ahead lexed
    rw [noLifetime, noLiteral, noBracket, Bool.false_and, Bool.false_or,
      if_neg Bool.false_ne_true, if_neg Bool.false_ne_true]
    refine (type.reads true depth rest enough ends.endsType).bind fun ty _ => ?_
    have emitted : (do emit [.ty ty]; return Arg.ty ty : Scan Arg).Reaches rest rest :=
      reaches_emit.bind fun _ _ => reaches_pure
    split
    next segment =>
      refine yields_ahead fun lexemes lexed => ?_
      have noEquals : Unsigned "=" rest := unsigned_of_head (by decide) fun c head => by
        obtain rfl : '=' = c := Option.some.inj head
        rcases ends with same | same <;> rw [same] <;> simp
      have noColon := ends.endsType.unsigned (s := ":") (by decide) (by decide)
      rw [noEquals lexemes lexed, noColon lexemes lexed, if_neg Bool.false_ne_true,
        if_neg Bool.false_ne_true]
      exact emitted
    next => exact emitted

/-- An associated type that is given as an argument. -/
theorem isArg_assigned (free : x.isKeyword = false) (type : IsType code) :
    IsArg (.word x :: .punct '=' :: code) where
  begins := .inl ⟨x, _, rfl, not_mem_untyped (.inl free)⟩
  reads depth rest enough ends := by
    have single : ¬Doubled (.punct '=' :: (code ++ rest)) := by
      have begins : BeginsType (code ++ rest) := type.begins.append
      have first := begins.head_ne (c := '=') (by decide)
      have second := begins.head_ne (c := '>') (by decide)
      rintro (⟨later, same⟩ | ⟨later, same⟩)
      · exact first (by rw [← (List.cons.inj same).2]; rfl)
      · exact second (by rw [← (List.cons.inj same).2]; rfl)
    have enough : code.length + 2 ≤ depth := enough
    have named : ((nested depth).ty true).Yields (.word x :: .punct '=' :: (code ++ rest))
        (· = .path false [.bare x]) (.punct '=' :: (code ++ rest)) :=
      yields_type_word free (by omega) ⟨single, by simp [sign]⟩
    have begins : BeginsType (.word x :: .punct '=' :: (code ++ rest)) :=
      .inl ⟨x, _, rfl, not_mem_untyped (.inl free)⟩
    refine yields_ahead fun lexemes lexed => ?_
    obtain ⟨noLiteral, noLifetime, noBracket⟩ := begins.ahead lexed
    rw [noLifetime, noLiteral, noBracket, Bool.false_and, Bool.false_or,
      if_neg Bool.false_ne_true, if_neg Bool.false_ne_true]
    refine named.bind fun ty only => ?_
    subst only
    refine yields_ahead_cons fun _ _ lexed => ?_
    rw [if_pos (sign_single rfl lexed)]
    have value : (do
        emit (Segment.bare x).pieces
        discard take
        let rest ← ahead
        if Ahead.literal rest || Ahead.opening .curly rest then constant (nested depth)
        else typeHere (nested depth) true : Scan Unit).Reaches (.punct '=' :: (code ++ rest))
          rest := by
      refine reaches_emit.bind fun _ _ => yields_take_bind ?_ (yields_ahead fun lexemes lexed => ?_)
      · exact ⟨fun listed => absurd listed (by decide),
          fun _ => not_doubled_of_head (type.begins.append.head_ne (by decide))⟩
      · obtain ⟨noLiteral, -, noBracket⟩ := type.begins.append.ahead lexed
        rw [noLiteral, noBracket, Bool.false_or, if_neg Bool.false_ne_true]
        exact (type.reads true depth rest (by omega) ends.endsType).bind fun _ _ => reaches_emit
    exact value.keeping.bind fun _ _ => reaches_pure

/-- Nothing but a type begins a list of arguments. -/
theorem commas_head_ne {c : Char} (some : codes ≠ []) (args : ∀ code ∈ codes, IsArg code)
    (other : c ∉ [':', '<', '&']) : (commas codes ++ rest).head? ≠ Option.some (.punct c) := by
  match codes with
  | [] => exact absurd rfl some
  | [code] =>
    rw [commas_singleton]
    exact (args code List.mem_cons_self).begins.append.head_ne other
  | code :: next :: others =>
    rw [commas_cons_cons, List.append_assoc]
    exact (args code List.mem_cons_self).begins.append.head_ne other

/-- What stands in angle brackets is read as arguments. -/
theorem reaches_angleArgs {depth : Nat} (some : codes ≠ []) (args : ∀ code ∈ codes, IsArg code)
    (enough : ∀ code ∈ codes, code.length ≤ depth) (single : ¬rest.Doubled) :
    (angleArgs (nested depth)).Reaches (.punct '<' :: (commas codes ++ .punct '>' :: rest))
      rest := by
  have closing : Apart (.punct '>') rest :=
    ⟨fun listed => absurd listed (by decide), fun _ => single⟩
  have opening : Apart (.punct '<') (commas codes ++ .punct '>' :: rest) :=
    ⟨fun listed => absurd listed (by decide),
      fun _ => not_doubled_of_head (commas_head_ne some args (by decide))⟩
  refine (yields_optionalSign_absent (unsigned_of_head (by decide) (by simp))).bind fun _ _ => ?_
  refine (reaches_expectSign rfl opening).bind fun _ _ => ?_
  refine Yields.bind (?_ : Reaches _ _ (.punct '>' :: rest)) fun found _ => ?_
  · refine yields_folded (fun found whole => found.2.2 = false ∧ whole = .punct '>' :: rest ∨
      found.2.2 = true ∧ ∃ codes : List Code, codes ≠ [] ∧ (∀ code ∈ codes, IsArg code) ∧
        (∀ code ∈ codes, code.length ≤ depth) ∧ whole = commas codes ++ .punct '>' :: rest) ?_
      (.inr ⟨rfl, codes, some, args, enough, rfl⟩)
    rintro ⟨found, trailing, more⟩ _ (⟨done, rfl⟩ | ⟨going, codes, some, args, enough, rfl⟩)
    · obtain rfl : more = false := done
      exact .inl ⟨trivial, yields_ahead fun _ _ => yields_pure rfl⟩
    obtain rfl : more = true := going
    have start : Unsigned ">" (commas codes ++ .punct '>' :: rest) :=
      unsigned_of_head (by decide) fun c head => by
        obtain rfl : '>' = c := Option.some.inj head
        exact commas_head_ne some args (by decide)
    match codes with
    | [] => exact absurd rfl some
    | [code] =>
      rw [commas_singleton] at start ⊢
      have arg := args code List.mem_cons_self
      refine .inr ⟨.punct '>' :: rest, ?_, yields_ahead fun lexemes lexed => ?_⟩
      · have some := arg.begins.length_pos
        simp only [List.length_append, List.length_cons]
        omega
      rw [start lexemes lexed, if_neg (by simp)]
      refine (arg.reads depth _ (enough code List.mem_cons_self) (.inr rfl)).bind fun arg _ => ?_
      refine yields_ahead_cons fun _ _ lexed => ?_
      rw [if_pos (sign_single rfl lexed)]
      exact yields_pure ⟨_, rfl, .inl ⟨rfl, rfl⟩⟩
    | code :: next :: others =>
      rw [commas_cons_cons, List.append_assoc, List.cons_append] at start ⊢
      have arg := args code List.mem_cons_self
      refine .inr ⟨commas (next :: others) ++ .punct '>' :: rest, ?_, yields_ahead
        fun lexemes lexed => ?_⟩
      · simp only [List.length_append, List.length_cons]
        omega
      rw [start lexemes lexed, if_neg (by simp)]
      refine (arg.reads depth _ (enough code List.mem_cons_self) (.inl rfl)).bind fun arg _ => ?_
      refine yields_ahead_cons fun _ _ lexed => ?_
      have noAngle : Unsigned ">" (.punct ',' :: (commas (next :: others) ++ .punct '>' :: rest)) :=
        unsigned_of_head (by decide) (by simp)
      rw [noAngle _ lexed, if_neg Bool.false_ne_true]
      refine (reaches_expectSign rfl (apart_of_not_mem (by decide))).bind fun _ _ => ?_
      exact yields_pure ⟨_, rfl, .inr ⟨rfl, next :: others, List.cons_ne_nil _ _,
        fun code member => args code (List.mem_cons_of_mem _ member),
        fun code member => enough code (List.mem_cons_of_mem _ member), rfl⟩⟩
  · exact (reaches_expectSign rfl closing).bind fun _ _ => reaches_pure

/-- A step of a path in a type is read with its arguments. -/
theorem reaches_segment_applied {depth : Nat} (free : x.isKeyword = false) (some : codes ≠ [])
    (args : ∀ code ∈ codes, IsArg code) (enough : ∀ code ∈ codes, code.length ≤ depth)
    (single : ¬rest.Doubled) : (segment (nested depth) false).Reaches
      (.word x :: .punct '<' :: (commas codes ++ .punct '>' :: rest)) rest := by
  have other := fun name => @Ahead.beq_of_not_keyword name x free
  refine yields_ahead_cons fun _ _ _ => ?_
  rw [if_neg (by simp (disch := decide) [other])]
  refine yields_ahead_cons fun _ _ _ => ?_
  rw [if_neg (by simp (disch := decide) [other])]
  refine (yields_ident free).bind fun _ _ => yields_ahead fun lexemes lexed => ?_
  have noEquals : Unsigned "<=" (.punct '<' :: (commas codes ++ .punct '>' :: rest)) :=
    unsigned_of_second rfl (commas_head_ne some args (by decide))
  rw [sign_single rfl lexed, noEquals lexemes lexed, if_pos (by rfl)]
  exact (reaches_angleArgs some args enough single).bind fun _ _ => reaches_pure

/-- Arguments may stand behind the last name of a path. -/
theorem isTypePath_applied (steps : ∀ x ∈ names, x.IsStep) (free : last.isKeyword = false)
    (some : codes ≠ []) (args : ∀ code ∈ codes, IsArg code) :
    IsTypePath ((led leading (below names [.word last])).applied (commas codes)) := by
  have spelled : (led leading (below names [.word last])).applied (commas codes) =
      led leading (below names (.word last :: .punct '<' :: (commas codes ++ [.punct '>']))) := by
    simp [applied]
  rw [spelled]
  refine ⟨fun rest => ?_, fun depth rest enough ends => ?_⟩
  · rw [led_append, below_append]
    exact beginsPath_led steps (.inl free)
  rw [led_append, below_append, List.cons_append, List.cons_append, List.append_assoc]
  have inside : ∀ code ∈ codes, code.length ≤ depth := by
    intro code member
    have shorter := length_le_commas member
    have whole := Nat.le_trans (Nat.le_trans length_le_below length_le_led) enough
    simp only [List.length_cons, List.length_append] at whole
    omega
  exact reaches_path steps (reaches_segment_applied free some args inside ends.1) ends.endsPath

def qualified (type trait : Code) (x : Ident) : Code :=
  (Code.applied [] (type ++ .plain "as" :: trait)).step x

theorem reaches_qualifiedPath {type trait : Code} {depth : Nat} {inExpr : Bool}
    (typed : IsType type)
    (path : IsPath trait) (step : x.IsStep) (enough : type.length ≤ depth) (ends : EndsPath rest) :
    (qualifiedPath (nested depth) inExpr).Reaches (qualified type trait x ++ rest) rest := by
  have spelled : qualified type trait x ++ rest = .punct '<' :: (type ++ .plain "as" :: (trait ++
      .punct '>' :: .punct ':' :: .punct ':' :: .word x :: rest)) := by
    simp [qualified, Code.step, applied, sign]
  have opening : Apart (.punct '<') (type ++ .plain "as" :: (trait ++
      .punct '>' :: .punct ':' :: .punct ':' :: .word x :: rest)) :=
    ⟨fun listed => absurd listed (by decide),
      fun _ => not_doubled_of_head (typed.begins.append.head_ne (by decide))⟩
  have closing : Apart (.punct '>') (.punct ':' :: .punct ':' :: .word x :: rest) :=
    ⟨fun listed => absurd listed (by decide), fun _ => not_doubled_of_head (by simp)⟩
  rw [spelled]
  refine (reaches_expectSign rfl opening).bind fun _ _ => ?_
  refine ((typed.reads true depth _ enough ⟨not_doubled_of_head (by simp [Token.plain]), by
    simp⟩).bind fun _ _ => reaches_emit).bind fun _ _ => ?_
  refine yields_optionalWord.bind fun _ present => ?_
  subst present
  rw [if_pos rfl]
  refine (path.reaches (by simp [EndsPath, sign])).discard.bind fun _ _ => ?_
  refine (reaches_expectSign rfl closing).bind fun _ _ => ?_
  refine (reaches_expectColons (by simp)).bind fun _ _ => ?_
  refine (yields_segment step (argless_of_endsPath ends)).bind fun first _ => ?_
  refine yields_folded_stop trivial ?_
  have absent : Unsigned "::" rest := ends.unsigned (by decide) (by decide)
  exact (yields_optionalSign_absent absent).bind fun _ none => by
    subst none
    exact yields_pure rfl

theorem isType_qualified {type trait : Code} (typed : IsType type) (path : IsPath trait)
    (step : x.IsStep) : IsType (qualified type trait x) := by
  have spelled : qualified type trait x =
      .punct '<' :: (type ++ .plain "as" ::
        (trait ++ [.punct '>', .punct ':', .punct ':', .word x])) := by
    simp [qualified, Code.step, applied, sign]
  refine isType_of_form (.inr (.inr ⟨_, _, spelled, by decide⟩))
    fun plus depth rest enough ends => ?_
  have inside : type.length ≤ depth := by
    rw [spelled, List.length_cons, List.length_append] at enough
    omega
  have read : (qualifiedPath (nested depth) false).Reaches (qualified type trait x ++ rest) rest :=
    reaches_qualifiedPath typed path step inside ends.endsPath
  rw [spelled, List.cons_append] at read ⊢
  refine yields_ahead_cons fun _ _ lexed => ?_
  have here := sign_single (s := "<") rfl lexed
  dsimp only
  rw [if_neg (by simp), if_neg (by simp [Ahead.opening]), if_neg (by simp), if_pos (by simp [here])]
  refine yields_ahead_cons fun _ _ lexed => ?_
  rw [if_pos (sign_single rfl lexed)]
  exact read.discard.bind fun _ _ => reaches_pure

/-- A reference to a type. A lifetime may stand behind the sign, or the word for a writable one. -/
theorem isType_ref {mark : Code} (marks : mark = [] ∨ mark = [.plain "mut"] ∨
      ∃ text, mark = [.lifetime text]) (type : IsType code)
    (other : code.head? ≠ some (.punct '&')) : IsType (.punct '&' :: (mark ++ code)) := by
  refine isType_of_form (.inr (.inr ⟨_, _, rfl, by decide⟩)) fun plus depth rest enough ends => ?_
  simp only [List.length_cons, List.length_append] at enough
  have typed : (typeHere (nested depth) false).Reaches (code ++ rest) rest :=
    (type.reads false depth rest (by omega) ends).bind fun _ _ => reaches_emit
  have opening : Apart (.punct '&') (mark ++ (code ++ rest)) := by
    rcases marks with rfl | rfl | ⟨text, rfl⟩
    · refine ⟨fun _ => ?_, fun _ => not_doubled_of_head (type.begins.append.head_ne (by decide))⟩
      rcases type.begins with ⟨x, later, rfl, -⟩ | ⟨x, later, rfl⟩ | ⟨c, later, rfl, -⟩
      · simp
      · simp
      · exact fun same => absurd same other
    · exact apart_of_head (by simp [Token.plain])
    · exact apart_of_head (by simp)
  have unmarked : (do
      discard <| optionalWord "mut"
      typeHere (nested depth) false
      return TypeForm.composite : Scan TypeForm).Reaches (code ++ rest) rest := by
    refine (yields_optionalWord_absent fun same => ?_).discard.bind fun _ _ =>
      typed.bind fun _ _ => reaches_pure
    rcases type.begins with ⟨x, later, rfl, free⟩ | ⟨x, later, rfl⟩ | ⟨c, later, rfl, -⟩
    · exact free (by rw [Token.word.inj (Option.some.inj same)]; decide)
    · cases same
    · cases same
  rw [List.cons_append, List.append_assoc]
  refine yields_ahead_apart opening fun joint behind lexed => ?_
  dsimp only
  rw [if_neg (by simp), if_neg (by simp [Ahead.opening]), if_neg (by simp),
    if_neg (by simp [Ahead.ident, Ahead.word?, Ahead.sign, Ahead.signFrom]), if_neg (by simp),
    if_neg (by simp [Ahead.opening]), if_neg (by simp [Ahead.sign, Ahead.signFrom]),
    if_pos (by simp [Ahead.sign, Ahead.signFrom])]
  refine yields_take_bind opening (yields_ahead fun lexemes lexed => ?_)
  rcases marks with rfl | rfl | ⟨text, rfl⟩
  · rw [(type.begins.append.ahead lexed).2.1, if_neg Bool.false_ne_true]
    exact unmarked
  · obtain ⟨joint, behind, rfl, -⟩ := lexed.cons apart_plain
    exact yields_optionalWord.discard.bind fun _ _ => typed.bind fun _ _ => reaches_pure
  · obtain ⟨joint, behind, rfl, -⟩ := lexed.cons apart_lifetime
    exact yields_take_bind apart_lifetime unmarked

end Code

namespace Rules

open Scan Code

theorem opens_bound (g : Rules) : (bound g).Opens := by
  have trait : (traitBound g).Opens := by
    refine mayOpen_binder.bind_opens fun _ => (mayOpen_optionalSign (by decide)).bind_opens
      fun marked => ?_
    have later : (do
        if ← optionalSign "?" then binder g
        let path ← path g false
        if lastIsBare path.segments && roundAhead (← ahead) then
          discard <| captured (optionalSign "::")
          roundArgs g : Scan Unit).Opens := by
      refine (mayOpen_optionalSign (by decide)).bind_opens fun _ => ?_
      exact opens_ite (mayOpen_binder.bind_opens fun _ => (opens_path false).bind)
        (opens_path false).bind
    refine opens_ite (opens_expectWord _).bind (opens_ahead fun _ => opens_ite ?_ later)
    exact opens_take.discard.bind
  refine opens_ahead fun _ => opens_ite ?_ (opens_ite opens_within trait)
  refine Opens.discard (opens_ahead fun rest => ?_)
  split
  · exact opens_take.discard.bind
  · exact opens_fail _

theorem opens_bounds (depth : Nat) (plus : Bool) : ((nested depth).bounds plus).Opens := by
  cases depth with
  | zero => exact opens_fail _
  | succ depth => exact Opens.repeated (opens_bound (nested depth)).bind

end Rules

namespace Code

open Rules Scan

variable {code rest : Code} {plus : Bool}

theorem BeginsPath.absent (begins : BeginsPath code) (s name : String) (written : s ≠ "")
    (other : ∀ c ∈ s.toList.head?, c ≠ ':') (keyword : keywords.contains name = true)
    (unlisted : name ∉ ["super", "self", "Self", "crate"]) :
    Unsigned s code ∧ Unworded name code := by
  rcases begins with ⟨x, later, rfl, step⟩ | ⟨x, later, rfl⟩
  · refine ⟨unsigned_of_head written (by simp), fun same => ?_⟩
    obtain rfl : x = ⟨name, false⟩ := Token.word.inj (Option.some.inj same)
    rcases step with free | listed
    · rw [Ident.isKeyword, Bool.not_false, Bool.true_and, keyword] at free
      cases free
    · simp only [List.map_cons, List.map_nil, List.mem_cons, List.not_mem_nil, or_false,
        Ident.mk.injEq, and_true] at listed
      exact unlisted (by simpa using listed)
  · exact ⟨unsigned_of_head written fun c head => by simpa using (other c head).symm,
      by simp [Unworded, Token.plain]⟩

/-- A path is a bound. -/
theorem IsTypePath.bounds (path : IsTypePath code) {depth : Nat} (enough : code.length ≤ depth)
    (ends : EndsType rest) : ((nested depth).bounds plus).Reaches (code ++ rest) rest := by
  cases depth with
  | zero =>
    have some := path.begins []
    rw [List.length_eq_zero_iff.mp (Nat.le_zero.mp enough)] at some
    rcases some with ⟨_, _, same, -⟩ | ⟨_, _, same⟩ <;> cases same
  | succ depth =>
  have trait : (traitBound (nested depth)).Reaches (code ++ rest) rest := by
    obtain ⟨noTilde, noFor⟩ :=
      (path.begins rest).absent "~" "for" (by decide) (by decide) (by decide)
      (by decide)
    obtain ⟨noMark, noConst⟩ := (path.begins rest).absent "?" "const" (by decide) (by decide)
      (by decide) (by decide)
    refine Yields.bind (yields_ahead fun lexemes lexed => ?_ : Reaches _ _ (code ++ rest))
      fun _ _ => ?_
    · rw [noFor.word_eq lexed]
      exact reaches_pure
    refine (yields_optionalSign_absent noTilde).bind fun _ none => ?_
    subst none
    refine yields_ahead fun lexemes lexed => ?_
    rw [noConst.word_eq lexed]
    refine (yields_optionalSign_absent noMark).bind fun _ none => ?_
    subst none
    refine (path.reads depth rest enough ends).bind fun found _ => yields_ahead
      fun lexemes lexed => ?_
    rw [ends.noRound lexemes lexed, Bool.and_false, if_neg Bool.false_ne_true]
    exact reaches_pure
  have one : (bound (nested depth)).Reaches (code ++ rest) rest := by
    refine yields_ahead fun lexemes lexed => ?_
    obtain ⟨-, noLifetime, noBracket⟩ := (path.begins rest).beginsType.ahead lexed
    rw [noLifetime, noBracket, if_neg Bool.false_ne_true, if_neg Bool.false_ne_true]
    exact trait
  refine reaches_repeated (· = code ++ rest) (fun whole same => .inl ?_) rfl
  subst same
  refine one.bind fun _ _ => yields_ahead fun lexemes lexed => ?_
  have noPlus : Unsigned "+" rest := ends.unsigned (by decide) (by decide)
  rw [noPlus lexemes lexed, Bool.and_false, Bool.not_false, if_pos rfl]
  exact yields_pure rfl

theorem IsTypePath.traitBounds (path : IsTypePath code) {depth : Nat} (enough : code.length ≤ depth)
    (ends : EndsType rest) :
    (Rules.traitBounds (nested depth) plus).Reaches (code ++ rest) rest := by
  have bounds : ((nested depth).bounds plus).Reaches (code ++ rest) rest := path.bounds enough ends
  obtain ⟨token, later, spelled, isTrait⟩ : ∃ token later, code ++ rest = token :: later ∧
      ((∃ x, token = .word x) ∨ token = .punct ':') := by
    rcases path.begins rest with ⟨x, later, same, -⟩ | ⟨x, later, same⟩
    · exact ⟨_, later, same, .inl ⟨x, rfl⟩⟩
    · exact ⟨_, _, same, .inr rfl⟩
  rw [spelled] at bounds ⊢
  refine (bounds.keeping_opens (opens_bounds depth plus)).bind fun found kept => ?_
  dsimp only
  rw [if_neg]
  · exact reaches_pure
  · rw [Bool.not_eq_true', Bool.not_eq_false, List.any_eq_true]
    refine ⟨.token token, kept.2, ?_⟩
    rcases isTrait with ⟨x, rfl⟩ | rfl <;> rfl

/-- A trait is a type behind a word that says how it is one. -/
theorem IsTypePath.isType_trait (path : IsTypePath code) {name : String}
    (kind : name = "dyn" ∨ name = "impl") :
    IsType (.plain name :: code) := by
  refine isType_of_form (.inl ⟨_, _, rfl, ?_⟩) fun plus depth rest enough ends => ?_
  · rcases kind with rfl | rfl <;> decide
  have enough : code.length ≤ depth := Nat.le_of_succ_le_succ enough
  have bounds {plus : Bool} : (Rules.traitBounds (nested depth) plus).Reaches (code ++ rest) rest :=
    path.traitBounds enough ends
  refine yields_ahead_cons fun _ _ _ => ?_
  rcases kind with rfl | rfl
  · exact yields_take_bind apart_plain (bounds.bind fun _ _ => reaches_pure)
  · exact yields_take_bind apart_plain (bounds.bind fun _ _ => reaches_pure)

end Code
end EntityGen
