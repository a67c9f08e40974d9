import EntityGen.Proofs.Grammar.Patterns

/-! Operands that are read wherever they stand: what stands first in them, the steps behind that,
and the signs in front of it. -/
namespace EntityGen

namespace Code

open Rules Scan

/-- What stands behind an expression in generated code. A block stands behind one only where no
struct literal may. -/
def EndsExpr (literals : Bool) (rest : Code) : Prop :=
  ∀ token ∈ rest.head?, token ∈ sign [',', ';'] ∨ (∃ d, token = .closing d) ∨
    (literals = false ∧ token = .opening .curly)

/-- What stands behind an operand: the end of the expression, or an operator. -/
def EndsOperand (literals : Bool) (rest : Code) : Prop :=
  EndsExpr literals rest ∨ ∃ c later, rest = .punct c :: later ∧ c ∈ ['=', '|']

/-- What stands behind the first part of an operand: a step to a further value, or its end. -/
def EndsAtom (literals : Bool) (rest : Code) : Prop :=
  (∃ c later, rest = .punct c :: later ∧ c ∈ ['.', '?']) ∨
    (∃ later, rest = .opening .round :: later) ∨ EndsOperand literals rest

/-- A value that is no name of a place. -/
def truths : List Ident := ["true", "false"].map fun name => ⟨name, false⟩

def Wordless (code : Code) : Prop := ∀ x, code.head? ≠ some (.word x)

/-- What an operand begins with if no sign stands in front of it. -/
def BeginsChain (code : Code) : Prop :=
  ∃ token later, code = token :: later ∧
    ((∃ x, token = .word x ∧ (x.IsStep ∨ x ∈ truths) ∧ Wordless later) ∨
      (∃ text, token = .literal text) ∨ token = .opening .round ∨ token ∈ sign [':', '<'])

def BeginsExpr (code : Code) : Prop :=
  ∃ token later, code = token :: later ∧
    ((∃ x, token = .word x ∧ (x.IsStep ∨ x ∈ truths) ∧ Wordless later) ∨
      (∃ text, token = .literal text) ∨ token = .opening .round ∨
        token ∈ sign [':', '<', '*', '&', '!'])

/-- Neither an item begins there nor a call of a name that produces code. -/
structure IsValue (whole : Code) : Prop where
  uncalled : callStatement?.Yields whole (· = none) whole
  noItem : ∀ lexemes, whole.Lexed lexemes → itemAhead lexemes = false

/-- The shape of an expression that does not end in its own block. -/
def Simple (shape : Shape) : Prop := shape = .plain ∨ shape = .comparison

structure IsOperand (code : Code) : Prop where
  begins : BeginsExpr code
  value : ∀ literals rest, EndsOperand literals rest → IsValue (code ++ rest)
  reads : ∀ literals depth rest, code.length ≤ depth → EndsOperand literals rest →
    ((nested depth).operand literals).Yields (code ++ rest) (· = .plain) rest

structure IsExpr (code : Code) : Prop where
  begins : BeginsExpr code
  value : ∀ literals rest, EndsExpr literals rest → IsValue (code ++ rest)
  reads : ∀ literals depth rest, code.length ≤ depth → EndsExpr literals rest →
    ((nested depth).expr literals).Yields (code ++ rest) Simple rest

/-- A step from an operand to a further value. -/
inductive IsSuffix : Code → Prop
  | field {x : Ident} (free : x.isKeyword = false) : IsSuffix [.punct '.', .word x]
  | call {x : Ident} {args : List Code} (free : x.isKeyword = false)
      (each : ∀ code ∈ args, IsExpr code) :
    IsSuffix (.punct '.' :: .word x :: within .round (commas args))
  | attempt : IsSuffix [.punct '?']

/-- The code is read as an operand whatever steps stand behind it. -/
structure IsChain (code : Code) : Prop where
  begins : BeginsChain code
  value : ∀ literals (suffixes : List Code) rest, (∀ suffix ∈ suffixes, IsSuffix suffix) →
    EndsOperand literals rest → IsValue (code ++ (suffixes.flatten ++ rest))
  reads : ∀ literals depth (suffixes : List Code) rest,
    (code ++ suffixes.flatten).length ≤ depth + 1 →
    (∀ suffix ∈ suffixes, IsSuffix suffix) → EndsOperand literals rest →
    ∃ middle, (atom (nested depth) literals).Yields (code ++ (suffixes.flatten ++ rest))
      (· = .plain) middle ∧
      (steps (nested depth) .plain).Yields middle (· = .plain) rest

variable {code rest : Code} {codes suffixes : List Code} {x : Ident} {literals : Bool} {depth : Nat}
  {lexemes : List Lexeme} {g : Rules}

theorem EndsExpr.ahead (ends : EndsExpr literals rest) (lexed : rest.Lexed lexemes) :
    lexemes = [] ∨ (∃ joint behind, lexemes = ⟨.punct ',', joint, .none⟩ :: behind) ∨
      (∃ joint behind, lexemes = ⟨.punct ';', joint, .none⟩ :: behind) ∨
      (∃ d joint behind, lexemes = ⟨.closing d, joint, .none⟩ :: behind) ∨
      ∃ joint behind, lexemes = ⟨.opening .curly, joint, .none⟩ :: behind := by
  obtain ⟨left, -, -, rfl⟩ := lexed
  match rest with
  | [] => exact .inl rfl
  | token :: later =>
    rcases ends token rfl with listed | ⟨d, rfl⟩ | ⟨-, rfl⟩
    · simp only [sign, List.map_cons, List.map_nil, List.mem_cons, List.not_mem_nil,
        or_false] at listed
      rcases listed with rfl | rfl
      · exact .inr (.inl ⟨_, _, rfl⟩)
      · exact .inr (.inr (.inl ⟨_, _, rfl⟩))
    · exact .inr (.inr (.inr (.inl ⟨d, _, _, rfl⟩)))
    · exact .inr (.inr (.inr (.inr ⟨_, _, rfl⟩)))

/-- No operator stands behind an expression. -/
theorem EndsExpr.unoperated (ends : EndsExpr literals rest) (lexed : rest.Lexed lexemes) :
    operator? lexemes = none ∧ assignAhead lexemes = false ∧ Ahead.sign ".." lexemes = false ∧
      Ahead.word "as" lexemes = false := by
  rcases ends.ahead lexed with rfl | ⟨_, _, rfl⟩ | ⟨_, _, rfl⟩ | ⟨_, _, _, rfl⟩ | ⟨_, _, rfl⟩ <;>
    exact ⟨rfl, rfl, rfl, rfl⟩

theorem EndsExpr.endsOperand (ends : EndsExpr literals rest) : EndsOperand literals rest :=
  .inl ends

theorem EndsOperand.endsAtom (ends : EndsOperand literals rest) : EndsAtom literals rest :=
  .inr (.inr ends)

theorem EndsOperand.stepless (ends : EndsOperand literals rest) (lexed : rest.Lexed lexemes) :
    Ahead.opening .round lexemes = false ∧ Ahead.sign "." lexemes = false ∧
      Ahead.opening .square lexemes = false ∧ Ahead.sign "?" lexemes = false := by
  rcases ends with ends | ⟨c, later, rfl, listed⟩
  · rcases ends.ahead lexed with rfl | ⟨_, _, rfl⟩ | ⟨_, _, rfl⟩ | ⟨_, _, _, rfl⟩ | ⟨_, _, rfl⟩ <;>
      exact ⟨rfl, rfl, rfl, rfl⟩
  · obtain ⟨left, -, -, rfl⟩ := lexed
    simp only [List.mem_cons, List.not_mem_nil, or_false] at listed
    rcases listed with rfl | rfl <;> exact ⟨rfl, rfl, rfl, rfl⟩

theorem EndsAtom.endsPath (ends : EndsAtom literals rest) : EndsPath rest := by
  intro token here
  rcases ends with ⟨c, later, rfl, listed⟩ | ⟨later, rfl⟩ | ends | ⟨c, later, rfl, listed⟩
  · obtain rfl := Option.some.inj here
    simp only [List.mem_cons, List.not_mem_nil, or_false] at listed
    rcases listed with rfl | rfl <;> decide
  · obtain rfl := Option.some.inj here
    decide
  · rcases ends token here with listed | ⟨d, rfl⟩ | ⟨-, rfl⟩
    · simp only [sign, List.map_cons, List.map_nil, List.mem_cons, List.not_mem_nil,
        or_false] at listed
      rcases listed with rfl | rfl <;> decide
    · cases d <;> decide
    · decide
  · obtain rfl := Option.some.inj here
    simp only [List.mem_cons, List.not_mem_nil, or_false] at listed
    rcases listed with rfl | rfl <;> decide

theorem EndsAtom.unstructured (ends : EndsAtom literals rest) (lexed : rest.Lexed lexemes) :
    (literals && Ahead.opening .curly lexemes) = false := by
  obtain ⟨left, -, -, rfl⟩ := lexed
  match rest with
  | .opening .curly :: _ =>
    rcases ends with ⟨c, later, same, -⟩ | ⟨later, same⟩ | ends | ⟨c, later, same, -⟩
    · cases same
    · cases same
    · rcases ends _ rfl with listed | ⟨d, same⟩ | ⟨bare, -⟩
      · exact absurd listed (by decide)
      · cases same
      · rw [bare, Bool.false_and]
    · cases same
  | [] | .opening .round :: _ | .opening .square :: _ | .closing _ :: _ | .word _ :: _ | .punct _ :: _
  | .literal _ :: _ | .lifetime _ :: _ => exact Bool.and_false _

theorem endsExpr_of_endsEntry (ends : EndsEntry rest) : EndsExpr literals rest := by
  intro token here
  rcases ends with ended | comma
  · exact .inr (.inl (ended token here))
  · rw [comma] at here
    cases here
    exact .inl (by decide)

theorem Wordless.append (first : Wordless code) (second : Wordless rest) :
    Wordless (code ++ rest) := by
  cases code with
  | nil => exact second
  | cons => exact first

theorem EndsOperand.wordless (ends : EndsOperand literals rest) : Wordless rest := by
  intro x same
  rcases ends with ends | ⟨c, later, rfl, -⟩
  · rcases ends _ same with listed | ⟨d, same⟩ | ⟨-, same⟩
    · exact absurd listed (by simp [sign])
    · cases same
    · cases same
  · cases same

theorem EndsAtom.wordless (ends : EndsAtom literals rest) : Wordless rest := by
  rcases ends with ⟨c, later, rfl, -⟩ | ⟨later, rfl⟩ | ends
  · nofun
  · nofun
  · exact ends.wordless

theorem IsSuffix.wordless {suffix : Code} (suffixed : IsSuffix suffix) : Wordless suffix := by
  cases suffixed <;> nofun

theorem Wordless.ahead (wordless : Wordless rest) (lexed : rest.Lexed lexemes) :
    Ahead.ident lexemes = false ∧ ∀ name, Ahead.word name lexemes = false := by
  obtain ⟨left, -, -, rfl⟩ := lexed
  match rest with
  | .word x :: _ => exact absurd rfl (wordless x)
  | [] | .opening _ :: _ | .closing _ :: _ | .punct _ :: _ | .literal _ :: _ | .lifetime _ :: _ =>
    exact ⟨rfl, fun _ => rfl⟩

theorem beq_of_known {name : String} (known : x.IsStep ∨ x ∈ truths)
    (keyword : keywords.contains name = true)
    (unlisted : name ∉ ["super", "self", "Self", "crate", "true", "false"]) :
    (x == ⟨name, false⟩) = false := by
  rcases known with (free | listed) | listed
  · exact Ahead.beq_of_not_keyword free keyword
  all_goals
    refine beq_eq_false_iff_ne.mpr fun same => ?_
    subst same
    simp_all [truths]

/-- No item begins with a name that no word follows. -/
theorem itemAhead_of_wordless {joint : Bool} {behind : List Lexeme} (known : x.IsStep ∨ x ∈ truths)
    (wordless : Wordless rest) (lexed : rest.Lexed behind)
    (below : x = ⟨"crate", false⟩ → Ahead.sign "::" behind) :
    itemAhead (⟨.word x, joint, .none⟩ :: behind) = false := by
  obtain ⟨noName, noWord⟩ := wordless.ahead lexed
  have other := fun name => @beq_of_known x name known
  have crate : ((x == ⟨"crate", false⟩) && !Ahead.sign "::" behind) = false := by
    by_cases same : x = ⟨"crate", false⟩
    · rw [below same, Bool.not_true, Bool.and_false]
    · rw [beq_eq_false_iff_ne.mpr same, Bool.false_and]
  simp (disch := decide) [itemAhead, other, noName, noWord, crate]

/-- Where no name stands, none is called. -/
theorem isValue_of_unnamed (unled : Unsigned "::" rest)
    (other : ∀ lexemes, rest.Lexed lexemes →
      nameAhead lexemes = false ∧ itemAhead lexemes = false) :
    IsValue rest where
  uncalled := by
    have unnamed := refuses_namePath unled fun lexemes lexed => (other lexemes lexed).1
    refine unnamed.discard.bind.look.bind fun found none => ?_
    subst none
    exact yields_pure rfl
  noItem lexemes lexed := (other lexemes lexed).2

/-- A path that no mark follows calls no name that produces code. -/
theorem IsPath.isValue (path : IsPath code) (other : code ≠ [.plain "crate"]) (ends : EndsPath rest)
    (wordless : Wordless rest) : IsValue (code ++ rest) where
  uncalled := by
    have unmarked : Unsigned "!" rest := ends.unsigned (by decide) (by decide)
    have read := ((reaches_namePath path ends).discard.bind fun _ _ => yields_ahead_here).look
    refine read.bind fun found some => ?_
    obtain ⟨lexemes, rfl, lexed⟩ := some
    dsimp only
    rw [unmarked lexemes lexed]
    exact yields_pure rfl
  noItem lexemes lexed := by
    obtain ⟨leading, names, last, steps, step, rfl⟩ := path
    rw [led_append, below_append] at lexed
    cases leading with
    | true =>
      obtain ⟨left, -, -, rfl⟩ := lexed
      rfl
    | false =>
      cases names with
      | nil =>
        obtain ⟨joint, behind, rfl, later⟩ := Lexed.cons lexed apart_word
        refine itemAhead_of_wordless (.inl step) wordless later fun same => absurd ?_ other
        rw [same]
        rfl
      | cons x names =>
        obtain ⟨joint, behind, rfl, later⟩ := Lexed.cons lexed apart_word
        have step := steps x List.mem_cons_self
        refine itemAhead_of_wordless (.inl step) (by nofun) later fun _ => ?_
        exact sign_pair rfl (by decide) (fun _ => below_head) later

theorem BeginsExpr.not_ended (begins : BeginsExpr code) : ¬Ended (code ++ rest) := by
  obtain ⟨token, later, rfl, kind⟩ := begins
  intro ended
  obtain ⟨d, rfl⟩ := ended token rfl
  rcases kind with ⟨x, same, -⟩ | ⟨text, same⟩ | same | listed
  · cases same
  · cases same
  · cases same
  · cases d <;> exact absurd listed (by decide)

theorem IsExpr.entry (expr : IsExpr code) (enough : code.length ≤ depth) :
    Entry (discard <| (nested depth).expr true) code where
  begins _ := expr.begins.not_ended
  reads rest ends := (expr.reads true depth rest enough (endsExpr_of_endsEntry ends)).discard

theorem reaches_exprs (each : ∀ code ∈ codes, IsExpr code)
    (enough : (commas codes).length ≤ depth) :
    (Scan.within .round (separated "," (discard <| (nested depth).expr true))).Reaches
      (within .round (commas codes) ++ rest) rest := by
  have inside : (separated "," (discard <| (nested depth).expr true)).Reaches
      (commas codes ++ .closing .round :: rest) (.closing .round :: rest) :=
    reaches_separated (fun code member =>
      (each code member).entry (Nat.le_trans (length_le_commas member) enough)) ended_closing
  rw [within_append]
  exact Yields.within inside

theorem endsAtom_flatten (suffixed : ∀ suffix ∈ suffixes, IsSuffix suffix)
    (ends : EndsOperand literals rest) : EndsAtom literals (suffixes.flatten ++ rest) := by
  cases suffixes with
  | nil => exact ends.endsAtom
  | cons suffix suffixes =>
    cases suffixed suffix List.mem_cons_self with
    | field => exact .inl ⟨_, _, rfl, by decide⟩
    | call => exact .inl ⟨_, _, rfl, by decide⟩
    | attempt => exact .inl ⟨_, _, rfl, by decide⟩

/-- A field or a method is taken, with the arguments of the method. -/
theorem reaches_member {args : Code} (free : x.isKeyword = false)
    (read : args = [] ∧ (∀ lexemes, rest.Lexed lexemes →
        Ahead.sign "::" lexemes = false ∧ Ahead.opening .round lexemes = false) ∨
      (∃ later, args = .opening .round :: later) ∧ (arguments g).Reaches (args ++ rest) rest) :
    (member g).Reaches (.punct '.' :: .word x :: (args ++ rest)) rest := by
  have point : Apart (.punct '.') (.word x :: (args ++ rest)) :=
    apart_of_head (by simp)
  refine (reaches_expectSign rfl point).bind fun _ _ => yields_ahead_cons
    fun joint behind lexed => ?_
  dsimp only
  rw [if_neg (by simp [Ahead.literalText?]),
    if_neg (by simp [Ahead.beq_of_not_keyword free
      (show keywords.contains "await" = true from by decide)]),
    if_neg (by simp [free])]
  refine (yields_ident free).discard.bind fun _ _ => ?_
  rcases read with ⟨rfl, quiet⟩ | ⟨⟨later, rfl⟩, read⟩
  · refine yields_ahead fun lexemes lexed => ?_
    obtain ⟨noColons, noRound⟩ := quiet lexemes lexed
    rw [noColons, noRound, if_neg Bool.false_ne_true, if_neg Bool.false_ne_true]
    exact reaches_pure
  · refine yields_ahead_cons fun joint behind lexed => ?_
    rw [if_neg (by simp), if_pos (by simp [Ahead.opening])]
    exact read

theorem quiet_flatten (suffixed : ∀ suffix ∈ suffixes, IsSuffix suffix)
    (ends : EndsOperand literals rest) (lexemes : List Lexeme)
    (lexed : Lexed (suffixes.flatten ++ rest) lexemes) :
    Ahead.sign "::" lexemes = false ∧ Ahead.opening .round lexemes = false := by
  refine ⟨(endsAtom_flatten suffixed ends).endsPath.unsigned (by decide)
    (by decide) lexemes lexed, ?_⟩
  cases suffixes with
  | nil => exact (ends.stepless lexed).1
  | cons suffix suffixes =>
    obtain ⟨left, -, -, rfl⟩ := lexed
    cases suffixed suffix List.mem_cons_self <;> rfl

def argued : Option (List Code) → Code
  | none => []
  | some args => within .round (commas args)

/-- What a step behind an operand begins with, where a point stands first. -/
theorem point_ahead {later : Code} {joint : Bool} {behind : List Lexeme}
    (lexed : Lexed (.word x :: later) behind) :
    (Ahead.sign "." (⟨.punct '.', joint, .none⟩ :: behind) &&
      !Ahead.sign ".." (⟨.punct '.', joint, .none⟩ :: behind) && Shape.plain != .range) = true := by
  obtain ⟨left, -, -, rfl⟩ := lexed
  cases joint <;> rfl

/-- All steps behind an operand are taken, with a call in front of them or without. -/
theorem yields_steps {args : Option (List Code)} (each : ∀ list ∈ args, ∀ code ∈ list, IsExpr code)
    (suffixed : ∀ suffix ∈ suffixes, IsSuffix suffix)
    (enough : (argued args ++ suffixes.flatten).length ≤ depth) (ends : EndsOperand literals rest) :
    (steps (nested depth) .plain).Yields (argued args ++ (suffixes.flatten ++ rest))
      (· = .plain) rest := by
  refine yields_folded (fun shape whole => shape = .plain ∧ ∃ args suffixes,
    (∀ list ∈ args, ∀ code ∈ list, IsExpr code) ∧ (∀ suffix ∈ suffixes, IsSuffix suffix) ∧
      (argued args ++ suffixes.flatten).length ≤ depth ∧
        whole = argued args ++ (suffixes.flatten ++ rest)) ?_
          ⟨rfl, args, suffixes, each, suffixed, enough, rfl⟩
  rintro _ _ ⟨rfl, args, suffixes, each, suffixed, enough, rfl⟩
  cases args with
  | some args =>
    simp only [argued, Code.within, List.length_append, List.length_cons, List.length_nil] at enough
    have call : (arguments (nested depth)).Reaches
      (within .round (commas args) ++ (suffixes.flatten ++ rest))
        (suffixes.flatten ++ rest) := reaches_exprs (each args rfl) (by omega)
    refine .inr ⟨suffixes.flatten ++ rest, ?_, yields_ahead_cons fun joint behind lexed => ?_⟩
    · simp only [argued, Code.within, List.length_append, List.length_cons]
      omega
    rw [if_pos (by simp [Ahead.opening])]
    refine call.bind fun _ _ => yields_pure ⟨_, rfl, rfl, none, suffixes, by simp, suffixed, ?_, rfl⟩
    simp only [argued, List.nil_append]
    omega
  | none =>
    cases suffixes with
    | nil =>
      refine .inl ⟨rfl, yields_ahead fun lexemes lexed => ?_⟩
      obtain ⟨noCall, noMember, noIndex, noMark⟩ := ends.stepless lexed
      rw [noCall, noMember, noIndex, noMark]
      exact yields_pure rfl
    | cons suffix suffixes =>
      obtain ⟨first, later⟩ := List.forall_mem_cons.mp suffixed
      have quiet := quiet_flatten later ends
      simp only [argued, List.nil_append, List.flatten_cons, List.length_append] at enough
      have going : ∃ b, some Shape.plain = some b ∧ b = .plain ∧ ∃ args, ∃ tail : List Code,
          (∀ list ∈ args, ∀ code ∈ list, IsExpr code) ∧ (∀ suffix ∈ tail, IsSuffix suffix) ∧
            (argued args ++ tail.flatten).length ≤ depth ∧
              suffixes.flatten ++ rest = argued args ++ (tail.flatten ++ rest) := by
        refine ⟨_, rfl, rfl, none, suffixes, by simp, later, ?_, rfl⟩
        simp only [argued, List.nil_append]
        omega
      rw [argued, List.nil_append, List.flatten_cons, List.append_assoc]
      refine .inr ⟨suffixes.flatten ++ rest, ?_, ?_⟩
      · cases first <;> simp only [List.length_append, List.length_cons] <;> omega
      cases first with
      | @field x free =>
        have member := reaches_member (g := nested depth) free (.inl ⟨rfl, quiet⟩)
        refine yields_ahead_apart (apart_of_head (by simp))
          fun joint behind lexed => ?_
        rw [if_neg (by simp [Ahead.opening]), if_pos (point_ahead lexed)]
        exact member.bind fun _ _ => yields_pure going
      | @call x args free each =>
        have fits : (commas args).length ≤ depth := by
          simp only [Code.within, List.length_cons, List.length_append] at enough
          omega
        have list : (arguments (nested depth)).Reaches
            (within .round (commas args) ++ (suffixes.flatten ++ rest))
              (suffixes.flatten ++ rest) :=
          reaches_exprs each fits
        have member := reaches_member free (.inr ⟨⟨_, rfl⟩, list⟩)
        refine yields_ahead_apart (apart_of_head (by simp))
          fun joint behind lexed => ?_
        rw [if_neg (by simp [Ahead.opening]), if_pos (point_ahead lexed)]
        exact member.bind fun _ _ => yields_pure going
      | attempt =>
        refine yields_ahead_cons fun joint behind lexed => ?_
        exact yields_take_bind (apart_of_not_mem (by decide)) (yields_pure going)

theorem yields_steps_stop (ends : EndsOperand literals rest) :
    (steps (nested depth) .plain).Yields rest (· = .plain) rest := by
  have stop : (steps (nested depth) .plain).Yields
    (argued none ++ (([] : List Code).flatten ++ rest))
      (· = .plain) rest := yields_steps nofun nofun (Nat.zero_le _) ends
  exact stop

structure IsAtom (code : Code) : Prop where
  begins : BeginsChain code
  value : ∀ literals rest, EndsAtom literals rest → IsValue (code ++ rest)
  reads : ∀ literals depth rest, code.length ≤ depth + 1 → EndsAtom literals rest →
    (atom (nested depth) literals).Yields (code ++ rest) (· = .plain) rest

theorem BeginsChain.length_pos (begins : BeginsChain code) : 0 < code.length := by
  obtain ⟨token, later, rfl, -⟩ := begins
  exact Nat.succ_pos _

theorem BeginsChain.append (begins : BeginsChain code) (wordless : Wordless rest) :
    BeginsChain (code ++ rest) := by
  obtain ⟨token, later, rfl, kind⟩ := begins
  refine ⟨token, later ++ rest, rfl, kind.imp_left ?_⟩
  rintro ⟨x, same, known, other⟩
  exact ⟨x, same, known, other.append wordless⟩

theorem within_wordless {d : Delimiter} : Wordless (within d code) := nofun

theorem IsAtom.isChain (first : IsAtom code) : IsChain code where
  begins := first.begins
  value _ _ _ suffixed ends := first.value _ _ (endsAtom_flatten suffixed ends)
  reads literals depth suffixes rest enough suffixed ends := by
    have some := first.begins.length_pos
    rw [List.length_append] at enough
    refine ⟨_, first.reads literals depth _ (by omega) (endsAtom_flatten suffixed ends), ?_⟩
    have all : (argued none ++ suffixes.flatten).length ≤ depth := by
      rw [argued, List.nil_append]
      omega
    exact yields_steps (by simp) suffixed all ends

/-- A call of a function that is no method. -/
theorem IsAtom.isChain_call (first : IsAtom code) (each : ∀ code ∈ codes, IsExpr code) :
    IsChain (code ++ within .round (commas codes)) where
  begins := by
    exact first.begins.append within_wordless
  value literals suffixes rest _ _ := by
    rw [List.append_assoc]
    exact first.value literals _ (.inr (.inl ⟨_, within_append⟩))
  reads literals depth suffixes rest enough suffixed ends := by
    have some := first.begins.length_pos
    simp only [List.length_append] at enough
    refine ⟨argued (Option.some codes) ++ (suffixes.flatten ++ rest), ?_, ?_⟩
    · rw [List.append_assoc]
      exact first.reads literals depth _ (by omega) (.inr (.inl ⟨_, within_append⟩))
    · refine yields_steps (by rintro _ ⟨⟩; exact each) suffixed ?_ ends
      rw [argued, List.length_append]
      omega

theorem IsChain.step {suffix : Code} (chain : IsChain code) (step : IsSuffix suffix) :
    IsChain (code ++ suffix) where
  begins := by
    exact chain.begins.append step.wordless
  value literals suffixes rest suffixed ends := by
    have all : ∀ code ∈ suffix :: suffixes, IsSuffix code :=
      List.forall_mem_cons.mpr ⟨step, suffixed⟩
    simpa using chain.value literals (suffix :: suffixes) rest all ends
  reads literals depth suffixes rest enough suffixed ends := by
    have all : ∀ code ∈ suffix :: suffixes, IsSuffix code :=
      List.forall_mem_cons.mpr ⟨step, suffixed⟩
    have read := chain.reads literals depth (suffix :: suffixes) rest
      (by simpa using enough) all ends
    simpa using read

/-- Where a path stands, the rule of paths is the one that reads it. -/
theorem IsPath.yields_atom (path : IsPath code) {wanted : Shape → Prop} {whole : Code}
    (read : (pathExpr g literals).Yields (code ++ whole) wanted rest) :
    (atom g literals).Yields (code ++ whole) wanted rest := by
  rcases @IsPath.begins code whole path with ⟨x, later, same, free | listed⟩ | ⟨x, later, same⟩
  · rw [same] at read ⊢
    have other := fun name => @Ahead.beq_of_not_keyword name x free
    refine yields_ahead_cons fun joint behind lexed => ?_
    rw [if_neg (by simp (disch := decide) [other, Ahead.literalText?]),
      if_neg (by simp (disch := decide) [other]),
      if_neg (by simp (disch := decide) [other, blockAhead, Ahead.opening, Ahead.lifetime]),
      if_neg (by simp (disch := decide) [other, closureAhead]), if_pos (by simp [free])]
    exact read
  · rw [same] at read ⊢
    refine yields_ahead_cons fun joint behind lexed => ?_
    simp only [List.map_cons, List.map_nil, List.mem_cons, List.not_mem_nil, or_false] at listed
    rcases listed with rfl | rfl | rfl | rfl <;> exact read
  · rw [same] at read ⊢
    exact yields_ahead_pair (by decide) (by simp) read

theorem IsPath.isAtom (path : IsPath code) (other : code ≠ [.plain "crate"]) : IsAtom code where
  begins := by
    obtain ⟨leading, names, last, steps, step, rfl⟩ := path
    cases leading with
    | true => exact ⟨_, _, rfl, .inr (.inr (.inr (by decide)))⟩
    | false =>
      cases names with
      | nil => exact ⟨_, _, rfl, .inl ⟨last, rfl, .inl step, nofun⟩⟩
      | cons x names => exact ⟨_, _, rfl, .inl ⟨x, rfl, .inl (steps x List.mem_cons_self), nofun⟩⟩
  value _ _ ends := path.isValue other ends.endsPath ends.wordless
  reads literals depth rest enough ends := by
    have read : (pathExpr (nested depth) literals).Yields (code ++ rest) (· = .plain) rest := by
      refine yields_ahead fun lexemes lexed => ?_
      rw [path.begins.unangled lexemes lexed]
      dsimp only
      rw [if_neg Bool.false_ne_true]
      have segments : (Path.segments <$> Rules.path (nested depth) true).Reaches
          (code ++ rest) rest :=
        (path.reaches ends.endsPath).map fun _ _ => trivial
      refine segments.bind fun segments _ => ?_
      refine yields_ahead fun lexemes lexed => ?_
      have noMark : Unsigned "!" rest := ends.endsPath.unsigned (by decide) (by decide)
      rw [noMark lexemes lexed, ends.unstructured lexed, Bool.and_false, Bool.false_and,
        Bool.false_and,
        if_neg Bool.false_ne_true, if_neg Bool.false_ne_true]
      exact yields_pure rfl
    exact path.yields_atom read

theorem isAtom_truth (truth : x ∈ truths) : IsAtom [.word x] where
  begins := ⟨_, _, rfl, .inl ⟨x, rfl, .inr truth, nofun⟩⟩
  value literals rest ends := by
    refine isValue_of_unnamed (unsigned_of_head (by decide) (by simp)) fun lexemes lexed => ?_
    obtain ⟨joint, behind, rfl, later⟩ := Lexed.cons lexed apart_word
    refine ⟨?_, itemAhead_of_wordless (.inr truth) ends.wordless later ?_⟩
    all_goals
      simp only [truths, List.map_cons, List.map_nil, List.mem_cons, List.not_mem_nil,
        or_false] at truth
      rcases truth with rfl | rfl
    · rfl
    · rfl
    · nofun
    · nofun
  reads literals depth rest enough ends := by
    refine yields_ahead_cons fun joint behind lexed => ?_
    simp only [truths, List.map_cons, List.map_nil, List.mem_cons, List.not_mem_nil,
      or_false] at truth
    rcases truth with rfl | rfl <;> exact yields_take_bind apart_word (yields_pure rfl)

theorem isAtom_literal (text : String) : IsAtom [.literal text] where
  begins := ⟨_, _, rfl, .inr (.inl ⟨text, rfl⟩)⟩
  value _ _ _ := isValue_of_unnamed (unsigned_of_head (by decide) (by simp)) fun _ lexed => by
    obtain ⟨left, -, -, rfl⟩ := lexed
    exact ⟨rfl, rfl⟩
  reads _ _ _ _ _ :=
    yields_ahead_cons fun _ _ _ => yields_take_bind apart_literal (yields_pure rfl)

theorem isAtom_qualified {type trait : Code} (typed : IsType type) (path : IsPath trait)
    (step : x.IsStep) : IsAtom (qualified type trait x) := by
  have spelled : qualified type trait x =
      .punct '<' :: (type ++ .plain "as" ::
        (trait ++ [.punct '>', .punct ':', .punct ':', .word x])) := by
    simp [qualified, Code.step, applied, sign]
  refine ⟨⟨_, _, spelled, .inr (.inr (.inr (by decide)))⟩, fun _ rest _ => ?_,
    fun literals depth rest enough ends => ?_⟩
  · rw [spelled]
    refine isValue_of_unnamed (unsigned_of_head (by decide) (by simp)) fun _ lexed => ?_
    obtain ⟨left, -, -, rfl⟩ := lexed
    exact ⟨rfl, rfl⟩
  have inside : type.length ≤ depth := by
    rw [spelled, List.length_cons, List.length_append] at enough
    omega
  have read : (qualifiedPath (nested depth) true).Reaches (qualified type trait x ++ rest) rest :=
    reaches_qualifiedPath typed path step inside ends.endsPath
  rw [spelled, List.cons_append] at read ⊢
  refine yields_ahead_cons fun joint behind lexed => ?_
  have here := sign_single (s := "<") rfl lexed
  rw [if_neg (by simp [Ahead.literalText?]), if_neg (by simp),
    if_neg (by simp [blockAhead, Ahead.opening, Ahead.lifetime]),
    if_neg (by simp [closureAhead, Ahead.sign, Ahead.signFrom]), if_pos (by simp [here])]
  refine yields_ahead_cons fun joint behind lexed => ?_
  rw [sign_single rfl lexed]
  refine read.bind fun segments _ => yields_ahead fun lexemes lexed => ?_
  rw [ends.unstructured lexed, Bool.not_true, Bool.false_and, Bool.false_and, Bool.false_and,
    if_neg Bool.false_ne_true, if_neg Bool.false_ne_true]
  exact yields_pure rfl

/-- Expressions between parentheses are an operand. -/
theorem isAtom_parens (each : ∀ code ∈ codes, IsExpr code) :
    IsAtom (within .round (commas codes)) where
  begins := ⟨_, _, rfl, .inr (.inr (.inl rfl))⟩
  value _ _ _ := by
    refine isValue_of_unnamed (unsigned_of_head (by decide) (by simp [Code.within])) fun _ lexed => ?_
    obtain ⟨left, -, -, rfl⟩ := lexed
    exact ⟨rfl, rfl⟩
  reads literals depth rest enough ends := by
    have inside : (commas codes).length ≤ depth := by
      simp only [Code.within, List.length_cons, List.length_append] at enough
      omega
    refine yields_ahead_cons fun joint behind lexed => ?_
    rw [if_neg (by simp [Ahead.literalText?]), if_neg (by simp),
      if_neg (by simp [blockAhead, Ahead.opening, Ahead.lifetime]), if_neg (by simp [closureAhead]),
      if_neg (by simp [Ahead.ident, Ahead.word?]), if_pos (by simp [Ahead.opening])]
    exact (reaches_exprs each inside).bind fun _ _ => yields_pure rfl

theorem yields_attributes_stop (unmarked : Unsigned "#" rest) :
    (attributes g).Yields rest (· = []) rest := by
  refine yields_folded_stop rfl (yields_ahead fun lexemes lexed => ?_)
  rw [unmarked lexemes lexed, if_neg Bool.false_ne_true]
  exact yields_pure rfl

theorem BeginsExpr.head_ne (begins : BeginsExpr code) {c : Char}
    (other : c ∉ [':', '<', '*', '&', '!']) :
    (code ++ rest).head? ≠ some (.punct c) := by
  obtain ⟨token, later, rfl, kind⟩ := begins
  intro same
  obtain rfl : token = .punct c := Option.some.inj same
  rcases kind with ⟨_, same, -⟩ | ⟨_, same⟩ | same | listed
  · cases same
  · cases same
  · cases same
  · obtain ⟨d, listed, same⟩ := List.mem_map.mp listed
    exact other (Token.punct.inj same ▸ listed)

theorem BeginsExpr.unsigned (begins : BeginsExpr code) {s : String} (written : s ≠ "")
    (other : ∀ c ∈ s.toList.head?, c ∉ [':', '<', '*', '&', '!']) : Unsigned s (code ++ rest) :=
  unsigned_of_head written fun c head => begins.head_ne (other c head)

theorem BeginsChain.beginsExpr (begins : BeginsChain code) : BeginsExpr code := by
  obtain ⟨token, later, rfl, named | other | other | listed⟩ := begins
  · exact ⟨_, _, rfl, .inl named⟩
  · exact ⟨_, _, rfl, .inr (.inl other)⟩
  · exact ⟨_, _, rfl, .inr (.inr (.inl other))⟩
  · refine ⟨_, _, rfl, .inr (.inr (.inr ?_))⟩
    have wider : ∀ token ∈ sign [':', '<'], token ∈ sign [':', '<', '*', '&', '!'] := by decide
    exact wider token listed

theorem BeginsChain.unsigned (begins : BeginsChain code) {s : String} (written : s ≠ "")
    (other : ∀ c ∈ s.toList.head?, c ∉ [':', '<']) : Unsigned s (code ++ rest) := by
  refine unsigned_of_head written fun c head same => other c head ?_
  obtain ⟨token, later, rfl, kind⟩ := begins
  obtain rfl : token = .punct c := Option.some.inj same
  rcases kind with ⟨_, same, -⟩ | ⟨_, same⟩ | same | listed
  · cases same
  · cases same
  · cases same
  · obtain ⟨d, listed, same⟩ := List.mem_map.mp listed
    exact Token.punct.inj same ▸ listed

theorem BeginsChain.unsigned_each (begins : BeginsChain code) :
    ∀ s ∈ ["#", "&", "*", "!", "-"], Unsigned s (code ++ rest) := by
  have unlisted : ∀ s ∈ ["#", "&", "*", "!", "-"], s ≠ "" ∧
      ∀ c ∈ s.toList.head?, c ∉ [':', '<'] := by decide
  exact fun s listed => begins.unsigned (unlisted s listed).1 (unlisted s listed).2

/-- The code is read as an operand wherever it stands, by the rule itself. -/
theorem isOperand_of_form (begins : BeginsExpr code)
    (value : ∀ literals rest, EndsOperand literals rest → IsValue (code ++ rest))
    (form : ∀ literals depth rest, code.length ≤ depth + 1 → EndsOperand literals rest →
      (operandFrom (nested depth) literals).Yields (code ++ rest) (· = .plain) rest) :
    IsOperand code where
  begins := begins
  value := value
  reads literals depth rest enough ends := by
    obtain ⟨token, later, rfl, -⟩ := begins
    cases depth with
    | zero => simp at enough
    | succ depth => exact form literals depth rest enough ends

/-- An operand with no sign in front of it: what stands first in it, and the steps behind that. -/
theorem yields_operandFrom {whole middle : Code}
    (unsigned : ∀ s ∈ ["#", "&", "*", "!", "-"], Unsigned s whole)
    (first : (atom g literals).Yields whole (· = .plain) middle)
    (later : (steps g .plain).Yields middle (· = .plain) rest) :
    (operandFrom g literals).Yields whole (· = .plain) rest := by
  simp only [List.forall_mem_cons] at unsigned
  obtain ⟨unmarked, unreferred, unstarred, unnegated, unminus, -⟩ := unsigned
  refine (yields_attributes_stop unmarked).discard.bind fun _ _ => yields_ahead
    fun lexemes lexed => ?_
  rw [unreferred lexemes lexed, if_neg Bool.false_ne_true,
    if_neg (by simp [unstarred lexemes lexed, unnegated lexemes lexed, unminus lexemes lexed])]
  refine first.bind fun shape plain => yields_ahead fun _ _ => ?_
  subst plain
  refine later.bind fun stepped last => yields_ahead fun _ _ => ?_
  subst last
  split
  · exact yields_pure rfl
  · exact yields_pure rfl

theorem unsigned_word : ∀ s ∈ ["#", "&", "*", "!", "-"], Unsigned s (.word x :: rest) := by
  simp only [List.forall_mem_cons]
  exact ⟨unsigned_of_head (by decide) (by simp), unsigned_of_head (by decide) (by simp),
    unsigned_of_head (by decide) (by simp), unsigned_of_head (by decide) (by simp),
    unsigned_of_head (by decide) (by simp), nofun⟩

theorem IsChain.isOperand (chain : IsChain code) : IsOperand code := by
  have value : ∀ literals rest, EndsOperand literals rest → IsValue (code ++ rest) :=
    fun literals rest ends => chain.value literals [] rest nofun ends
  refine isOperand_of_form chain.begins.beginsExpr value fun literals depth rest enough ends => ?_
  obtain ⟨middle, first, later⟩ :=
    chain.reads literals depth [] rest (by simpa using enough) nofun ends
  exact yields_operandFrom chain.begins.unsigned_each first later

/-- A sign in front of an operand. -/
theorem IsOperand.signed (operand : IsOperand code) {c : Char} (listed : c ∈ ['*', '!']) :
    IsOperand (.punct c :: code) := by
  have apart {rest : Code} : Apart (.punct c) (code ++ rest) := by
    refine ⟨fun member => ?_, fun _ => not_doubled_of_head (operand.begins.head_ne (by decide))⟩
    have other : ∀ c ∈ ['*', '!'], .punct c ∉ sign repeatable := by decide
    exact absurd member (other c listed)
  have unled : ':' ≠ c := by rintro rfl; exact absurd listed (by decide)
  refine isOperand_of_form ⟨_, _, rfl, .inr (.inr (.inr ?_))⟩ (fun _ rest _ => ?_)
    fun literals depth rest enough ends => ?_
  · have wider : ∀ c ∈ ['*', '!'], .punct c ∈ sign [':', '<', '*', '&', '!'] := by decide
    exact wider c listed
  · refine isValue_of_unnamed (unsigned_of_head (by decide) ?_) fun _ lexed => ?_
    · rintro _ ⟨⟩ same
      exact unled (Token.punct.inj (Option.some.inj same)).symm
    · obtain ⟨left, -, -, rfl⟩ := lexed
      exact ⟨rfl, rfl⟩
  · have unmarked : Unsigned "#" (.punct c :: code ++ rest) := by
      refine unsigned_of_head (by decide) ?_
      rintro _ ⟨⟩ same
      obtain rfl := Token.punct.inj (Option.some.inj same)
      exact absurd listed (by decide)
    refine (yields_attributes_stop unmarked).discard.bind fun _ _ => yields_ahead_cons
      fun joint behind lexed => ?_
    have read := operand.reads literals depth rest (Nat.le_of_succ_le_succ enough) ends
    simp only [List.mem_cons, List.not_mem_nil, or_false] at listed
    rcases listed with rfl | rfl
    · exact yields_take_bind apart (read.discard.bind fun _ _ => yields_pure rfl)
    · exact yields_take_bind apart (read.discard.bind fun _ _ => yields_pure rfl)

/-- A reference to an operand that is no reference itself. -/
theorem IsOperand.borrowed (operand : IsOperand code) {mark : Code}
    (marks : mark = [] ∨ mark = [.plain "mut"]) (other : code.head? ≠ some (.punct '&')) :
    IsOperand (.punct '&' :: (mark ++ code)) := by
  refine isOperand_of_form ⟨_, _, rfl, .inr (.inr (.inr (by decide)))⟩ (fun _ rest _ => ?_)
    fun literals depth rest enough ends => ?_
  · refine isValue_of_unnamed (unsigned_of_head (by decide) (by simp)) fun _ lexed => ?_
    obtain ⟨left, -, -, rfl⟩ := lexed
    exact ⟨rfl, rfl⟩
  simp only [List.length_cons, List.length_append] at enough
  have read : (discard <| (nested depth).operand literals).Reaches (code ++ rest) rest :=
    (operand.reads literals depth rest (by omega) ends).discard
  obtain ⟨token, later, spelled, kind⟩ := operand.begins
  have apart : Apart (.punct '&') (mark ++ (code ++ rest)) := by
    rcases marks with rfl | rfl
    · refine ⟨fun _ => ?_, fun _ => not_doubled_of_head (operand.begins.head_ne (by decide))⟩
      rw [spelled] at other ⊢
      exact fun same => absurd same other
    · exact apart_of_head (by simp [Token.plain])
  have unmarked : (do
      discard <| optionalWord "mut"
      discard <| (nested depth).operand literals
      return Shape.plain : Scan Shape).Yields (mark ++ (code ++ rest)) (· = .plain) rest := by
    rcases marks with rfl | rfl
    · refine (yields_optionalWord_absent fun same => ?_).discard.bind fun _ _ =>
        read.bind fun _ _ => yields_pure rfl
      rw [List.nil_append, spelled] at same
      rcases kind with ⟨x, rfl, known, -⟩ | ⟨text, rfl⟩ | rfl | listed
      · obtain rfl : x = ⟨"mut", false⟩ := Token.word.inj (Option.some.inj same)
        rcases known with (free | listed) | listed <;> exact absurd ‹_› (by decide)
      · cases same
      · cases same
      · rw [Option.some.inj same] at listed
        exact absurd listed (by decide)
    · exact yields_optionalWord.discard.bind fun _ _ => read.bind fun _ _ => yields_pure rfl
  rw [List.cons_append, List.append_assoc]
  refine (yields_attributes_stop (unsigned_of_head (by decide) (by simp))).discard.bind
    fun _ _ => ?_
  refine yields_ahead_cons fun joint behind lexed => ?_
  refine yields_take_bind apart (yields_ahead fun lexemes lexed => ?_)
  -- the words that make a raw pointer are two, and no word follows the first one here
  have plain : (Ahead.word "raw" lexemes && Ahead.words ["mut", "const"] lexemes.tail) = false := by
    rcases marks with rfl | rfl
    · rw [List.nil_append, spelled] at lexed
      rcases kind with ⟨x, rfl, -, wordless⟩ | ⟨text, rfl⟩ | rfl | listed
      · obtain ⟨joint, behind, rfl, later⟩ := Lexed.cons lexed apart_word
        have none := ((wordless.append ends.wordless).ahead later).2
        simp [none]
      · obtain ⟨left, -, -, rfl⟩ := lexed
        rfl
      · obtain ⟨left, -, -, rfl⟩ := lexed
        rfl
      · obtain ⟨c, -, rfl⟩ := List.mem_map.mp listed
        obtain ⟨left, -, -, rfl⟩ := lexed
        rfl
    · obtain ⟨left, -, -, rfl⟩ := lexed
      rfl
  rw [plain, if_neg Bool.false_ne_true]
  exact unmarked

end Code
end EntityGen
