import EntityGen.Proofs.Grammar.Exprs

/-! Bodies that are read wherever they stand: statements one after the other, and perhaps a value
behind them. -/
namespace EntityGen.Code

open Rules Scan

variable {code rest body type value pattern source condition whole : Code} {codes : List Code}
  {depth : Nat} {g : Rules} {x : Ident} {wanted : Bool → Prop}

/-- What a statement in generated code begins with, and nothing that goes on with another one. -/
def BeginsStatement (code : Code) : Prop :=
  ∃ token later, code = token :: later ∧ token ≠ .plain "else" ∧ (∀ d, token ≠ .closing d) ∧
    token ∉ sign ['.', '?', ';', ',', '#']

def EndsStatement (rest : Code) : Prop := Ended rest ∨ BeginsStatement rest

theorem BeginsStatement.append (begins : BeginsStatement code) :
    BeginsStatement (code ++ rest) := by
  obtain ⟨token, later, rfl, known⟩ := begins
  exact ⟨token, later ++ rest, rfl, known⟩

theorem BeginsStatement.not_ended (begins : BeginsStatement code) : ¬Ended code := by
  obtain ⟨token, later, rfl, -, open_, -⟩ := begins
  intro ended
  obtain ⟨d, same⟩ := ended _ rfl
  exact open_ d same

theorem BeginsStatement.unsigned (begins : BeginsStatement code) {s : String} {c : Char}
    (single : s.toList = [c]) (listed : c ∈ ['.', '?', ';', ',', '#']) : Unsigned s code := by
  obtain ⟨token, later, rfl, -, -, other⟩ := begins
  refine unsigned_of_head (by rintro rfl; cases single) fun d head same => ?_
  rw [single] at head
  obtain rfl := Option.some.inj head
  exact other (Option.some.inj same ▸ List.mem_map_of_mem listed)

theorem Ended.unsigned (ended : Ended rest) {s : String} (written : s ≠ "") : Unsigned s rest := by
  refine unsigned_of_head written fun c _ same => ?_
  obtain ⟨d, same⟩ := ended _ same
  cases same

theorem EndsEntry.unsigned (ends : EndsEntry rest) {s : String} (written : s ≠ "")
    (other : ∀ c ∈ s.toList.head?, c ≠ ',') : Unsigned s rest := by
  rcases ends with ended | comma
  · exact ended.unsigned written
  · refine unsigned_of_head written fun c head same => other c head ?_
    exact (Token.punct.inj (Option.some.inj (comma.symm.trans same))).symm

theorem EndsStatement.unsigned (ends : EndsStatement rest) {s : String} {c : Char}
    (single : s.toList = [c]) (listed : c ∈ ['.', '?', ';', ',', '#']) : Unsigned s rest := by
  rcases ends with ended | begins
  · exact ended.unsigned (by rintro rfl; cases single)
  · exact begins.unsigned single listed

theorem EndsStatement.unworded (ends : EndsStatement rest) : Unworded "else" rest := by
  intro same
  rcases ends with ended | ⟨token, later, rfl, other, -⟩
  · obtain ⟨d, same⟩ := ended _ same
    cases same
  · exact other (Option.some.inj same)

theorem BeginsStatement.length_pos (begins : BeginsStatement code) : 0 < code.length := by
  obtain ⟨token, later, rfl, -⟩ := begins
  exact Nat.succ_pos _

theorem beginsStatement_word {name : String} (other : name ≠ "else") :
    BeginsStatement (.plain name :: rest) := by
  refine ⟨_, _, rfl, fun same => other ?_, by simp [Token.plain], by simp [sign, Token.plain]⟩
  exact congrArg Ident.name (Token.word.inj same)

theorem BeginsExpr.beginsStatement (begins : BeginsExpr code) : BeginsStatement code := by
  obtain ⟨token, later, rfl, kind⟩ := begins
  refine ⟨token, later, rfl, ?_⟩
  rcases kind with ⟨x, rfl, known, -⟩ | ⟨text, rfl⟩ | rfl | listed
  · refine ⟨fun same => ?_, nofun, by simp [sign]⟩
    have other := @beq_of_known x "else" known (by decide) (by decide)
    rw [Token.word.inj same] at other
    cases other
  · exact ⟨nofun, nofun, by simp [sign]⟩
  · exact ⟨nofun, nofun, by decide⟩
  · have apart : ∀ token ∈ sign [':', '<', '*', '&', '!'], token ≠ .plain "else" ∧
        (∀ d, token ≠ .closing d) ∧ token ∉ sign ['.', '?', ';', ',', '#'] := by
      simp [sign, Token.plain]
    exact apart token listed

/-- One of the words that begin a statement is no value. -/
theorem isValue_word {name : String} (listed : name ∈ ["let", "for", "if", "match", "return"]) :
    IsValue (.plain name :: rest) := by
  refine isValue_of_unnamed (unsigned_of_head (by decide) (by simp [Token.plain]))
    fun lexemes lexed => ?_
  obtain ⟨left, -, -, rfl⟩ := lexed
  simp only [List.mem_cons, List.not_mem_nil, or_false] at listed
  rcases listed with rfl | rfl | rfl | rfl | rfl <;> exact ⟨rfl, rfl⟩

theorem BeginsExpr.noBlock (begins : BeginsExpr code) {lexemes : List Lexeme}
    (lexed : Lexed (code ++ rest) lexemes) : blockAhead lexemes = false := by
  obtain ⟨token, later, rfl, kind⟩ := begins
  obtain ⟨left, -, -, rfl⟩ := lexed
  rcases kind with ⟨x, rfl, known, -⟩ | ⟨text, rfl⟩ | rfl | listed
  · have other := fun name => @beq_of_known x name known
    simp (disch := decide) [lexemesFrom, blockAhead, Ahead.opening, Ahead.lifetime, other]
  · rfl
  · rfl
  · obtain ⟨c, -, rfl⟩ := List.mem_map.mp listed
    rfl

theorem IsExpr.yields_statement (expr : IsExpr code) (enough : code.length ≤ depth)
    (ends : EndsExpr true rest) : ((nested depth).statement).Yields (code ++ rest) Simple rest := by
  have some := expr.begins.length_pos
  obtain ⟨depth, rfl⟩ : ∃ below, depth = below + 1 := ⟨depth - 1, by omega⟩
  have unmarked : Unsigned "#" (code ++ rest) := expr.begins.unsigned (by decide) (by decide)
  refine (yields_attributes_stop unmarked).discard.bind fun _ _ => yields_ahead
    fun lexemes lexed => ?_
  rw [expr.begins.noBlock lexed, if_neg Bool.false_ne_true]
  exact expr.reads true (depth + 1) rest enough ends

/-- What ends in its own block is read by the rule of such expressions. -/
theorem yields_statement_block (unmarked : Unsigned "#" whole)
    (blocked : ∀ lexemes, whole.Lexed lexemes → blockAhead lexemes = true)
    (read : (blockExpr (nested depth)).Reaches whole rest) (ends : EndsStatement rest) :
    ((nested (depth + 1)).statement).Yields whole (· = .block) rest := by
  refine (yields_attributes_stop unmarked).discard.bind fun _ _ => yields_ahead
    fun lexemes lexed => ?_
  rw [blocked lexemes lexed, if_pos rfl]
  refine read.bind fun _ _ => yields_ahead fun lexemes lexed => ?_
  have noPoint : Unsigned "." rest := ends.unsigned rfl (by decide)
  have noMark : Unsigned "?" rest := ends.unsigned rfl (by decide)
  rw [noPoint lexemes lexed, noMark lexemes lexed]
  exact yields_pure rfl

structure IsStatement (code : Code) : Prop where
  begins : BeginsStatement code
  reads : ∀ depth rest, code.length ≤ depth → EndsStatement rest →
    (oneStatement (nested depth)).Yields (code ++ rest) (· = false) rest

structure IsTail (code : Code) : Prop where
  begins : BeginsStatement code
  reads : ∀ depth rest, code.length ≤ depth → Ended rest →
    (oneStatement (nested depth)).Reaches (code ++ rest) rest

/-- The code is read as what stands between the brackets of a block. -/
structure IsBody (code : Code) : Prop where
  reads : ∀ depth rest, code.length ≤ depth →
    (blockOf (nested depth)).Reaches (within .curly code ++ rest) rest

/-- What is no item is read by the rule of expressions that are statements. -/
theorem yields_oneStatement (unmarked : Unsigned "#" whole) (value : IsValue whole)
    (unlet : Unworded "let" whole)
    (later : (do
      let shape ← g.statement
      if ← optionalSign ";" then return false
      return !(shape matches .block | .invocation .curly) : Scan Bool).Yields whole wanted rest) :
    (oneStatement g).Yields whole wanted rest := by
  refine yields_ahead fun _ _ => (yields_attributes_stop unmarked).keeping.bind fun found _ => ?_
  refine value.uncalled.bind fun call none => yields_ahead fun lexemes lexed => ?_
  subst none
  dsimp only
  rw [unlet.word_eq lexed, value.noItem lexemes lexed, if_neg Bool.false_ne_true,
    if_neg Bool.false_ne_true]
  exact later

/-- A statement with a semicolon behind it. -/
theorem yields_oneStatement_closed (unmarked : Unsigned "#" whole) (value : IsValue whole)
    (unlet : Unworded "let" whole) (read : g.statement.Reaches whole (.punct ';' :: rest)) :
    (oneStatement g).Yields whole (· = false) rest := by
  refine yields_oneStatement unmarked value unlet (read.bind fun shape _ => ?_)
  refine (yields_optionalSign rfl (apart_of_not_mem (by decide))).bind fun found some => ?_
  subst some
  exact yields_pure rfl

/-- A statement at the end of a body, without a semicolon. -/
theorem reaches_oneStatement_last (unmarked : Unsigned "#" whole) (value : IsValue whole)
    (unlet : Unworded "let" whole) (read : g.statement.Reaches whole rest) (ended : Ended rest) :
    (oneStatement g).Reaches whole rest := by
  refine yields_oneStatement unmarked value unlet (read.bind fun shape _ => ?_)
  refine (yields_optionalSign_absent (ended.unsigned (by decide))).bind fun found none => ?_
  subst none
  exact reaches_pure

theorem BeginsExpr.unlet (begins : BeginsExpr code) : Unworded "let" (code ++ rest) := by
  obtain ⟨token, later, rfl, kind⟩ := begins
  intro same
  obtain rfl : token = .plain "let" := Option.some.inj same
  rcases kind with ⟨x, same, known, -⟩ | ⟨text, same⟩ | same | listed
  · have other := @beq_of_known x "let" known (by decide) (by decide)
    rw [← Token.word.inj same] at other
    cases other
  · cases same
  · cases same
  · exact absurd listed (by decide)

theorem BeginsExpr.unmarked (begins : BeginsExpr code) : Unsigned "#" (code ++ rest) :=
  begins.unsigned (by decide) (by decide)

theorem endsExpr_semicolon {literals : Bool} : EndsExpr literals (.punct ';' :: rest) := by
  simp [EndsExpr, sign]

/-- An expression with a semicolon behind it. -/
theorem IsExpr.isStatement (expr : IsExpr code) : IsStatement (code ++ [.punct ';']) where
  begins := expr.begins.beginsStatement.append
  reads depth rest enough _ := by
    rw [List.length_append] at enough
    rw [List.append_assoc, List.singleton_append]
    have ends : EndsExpr true (.punct ';' :: rest) := endsExpr_semicolon
    exact yields_oneStatement_closed expr.begins.unmarked (expr.value true _ ends) expr.begins.unlet
      (expr.yields_statement (by omega) ends).reaches

theorem EndsExpr.of_ended {literals : Bool} (ended : Ended rest) : EndsExpr literals rest :=
  endsExpr_of_endsEntry (.inl ended)

/-- An expression that is the value of a body. -/
theorem IsExpr.isTail (expr : IsExpr code) : IsTail code where
  begins := expr.begins.beginsStatement
  reads depth rest enough ended := by
    have ends : EndsExpr true rest := .of_ended ended
    exact reaches_oneStatement_last expr.begins.unmarked (expr.value true _ ends) expr.begins.unlet
      (expr.yields_statement enough ends).reaches ended

/-- A value that the method ends with at once. -/
theorem IsExpr.isStatement_return (expr : IsExpr code) :
    IsStatement (.plain "return" :: (code ++ [.punct ';'])) where
  begins := beginsStatement_word (by decide)
  reads depth rest enough _ := by
    simp only [List.length_cons, List.length_append] at enough
    obtain ⟨depth, rfl⟩ : ∃ below, depth = below + 1 := ⟨depth - 1, by omega⟩
    rw [List.cons_append, List.append_assoc, List.singleton_append]
    have ends : EndsExpr true (.punct ';' :: rest) := endsExpr_semicolon
    have left : (leaving (nested depth) true).Reaches (code ++ .punct ';' :: rest)
        (.punct ';' :: rest) := by
      refine yields_ahead fun lexemes lexed => ?_
      have unfinished := finished_eq_false lexed expr.begins.not_ended
      have unsigned : Ahead.signs [",", ";", "=>"] lexemes = false := by
        have noComma : Unsigned "," (code ++ .punct ';' :: rest) :=
          expr.begins.unsigned (by decide) (by decide)
        have noEnd : Unsigned ";" (code ++ .punct ';' :: rest) :=
          expr.begins.unsigned (by decide) (by decide)
        have noArrow : Unsigned "=>" (code ++ .punct ';' :: rest) :=
          expr.begins.unsigned (by decide) (by decide)
        simp [noComma lexemes lexed, noEnd lexemes lexed, noArrow lexemes lexed]
      rw [unfinished, unsigned]
      exact (expr.reads true depth _ (by omega) ends).discard
    have first : (atom (nested depth) true).Yields (.plain "return" :: (code ++ .punct ';' :: rest))
        (· = .plain) (.punct ';' :: rest) :=
      yields_ahead_cons fun joint behind lexed =>
        yields_take_bind apart_plain (left.bind fun _ _ => yields_pure rfl)
    have read : ((nested (depth + 1)).statement).Yields
      (.plain "return" :: (code ++ .punct ';' :: rest))
        (· = .plain) (.punct ';' :: rest) := by
      refine (yields_attributes_stop (unsigned_word "#" (by decide))).discard.bind fun _ _ =>
        yields_ahead_cons fun joint behind lexed => ?_
      refine (yields_operandFrom unsigned_word first (yields_steps_stop (.inl ends))).bind
        fun shape plain => ?_
      subst plain
      exact yields_climbFrom_stop (.inl rfl) ends
    exact yields_oneStatement_closed (unsigned_word "#" (by decide)) (isValue_word (by decide))
      (by simp [Unworded, Token.plain]) read.reaches

/-- A variable with its value, and with a type or without one. -/
theorem isStatement_decl {mark typed : Code} (marks : mark = [] ∨ mark = [.plain "mut"])
    (free : x.isKeyword = false)
    (types : typed = [] ∨ ∃ type, IsType type ∧ typed = .punct ':' :: type)
    (expr : IsExpr value) :
    IsStatement (.plain "let" ::
      (mark ++ .word x :: (typed ++ .punct '=' :: (value ++ [.punct ';'])))) where
  begins := beginsStatement_word (by decide)
  reads depth rest enough _ := by
    have ends : EndsExpr true (.punct ';' :: rest) := endsExpr_semicolon
    have single : ¬Doubled (.punct '=' :: (value ++ .punct ';' :: rest)) := by
      rintro (⟨later, same⟩ | ⟨later, same⟩)
      · exact expr.begins.head_ne (c := '=') (by decide) (by rw [← (List.cons.inj same).2]; rfl)
      · exact expr.begins.head_ne (c := '>') (by decide) (by rw [← (List.cons.inj same).2]; rfl)
    have assign : Apart (.punct '=') (value ++ .punct ';' :: rest) :=
      ⟨fun listed => absurd listed (by decide),
        fun _ => not_doubled_of_head (expr.begins.head_ne (by decide))⟩
    have valued : (do
        if ← optionalSign "=" then
          let kept ← keeping ((nested depth).expr true)
          let braceLast := (Piece.codes kept.2).getLast? == some (.closing .curly)
          if !braceLast then
            if ← optionalWord "else" then (nested depth).block
        expectSign ";" : Scan Unit).Reaches (.punct '=' :: (value ++ .punct ';' :: rest)) rest := by
      refine (yields_optionalSign rfl assign).bind fun found some => ?_
      subst some
      have fits : value.length ≤ depth := by
        simp only [List.length_cons, List.length_append] at enough
        omega
      refine (expr.reads true depth _ fits ends).keeping.bind fun found _ => ?_
      have closed : (expectSign ";").Reaches (.punct ';' :: rest) rest :=
        reaches_expectSign rfl (apart_of_not_mem (by decide))
      dsimp only
      split
      · refine (yields_optionalWord_absent (by simp [Unworded, Token.plain])).bind
          fun found none => ?_
        subst none
        exact closed
      · exact closed
    have annotated : (do
        if ← optionalSign ":" then typeHere (nested depth) true
        if ← optionalSign "=" then
          let kept ← keeping ((nested depth).expr true)
          let braceLast := (Piece.codes kept.2).getLast? == some (.closing .curly)
          if !braceLast then
            if ← optionalWord "else" then (nested depth).block
        expectSign ";" : Scan Unit).Reaches
          (typed ++ .punct '=' :: (value ++ .punct ';' :: rest)) rest := by
      rcases types with rfl | ⟨type, known, rfl⟩
      · refine (yields_optionalSign_absent (unsigned_of_head (by decide) (by simp))).bind
          fun found none => ?_
        subst none
        exact valued
      · have colon : Apart (.punct ':') (type ++ .punct '=' :: (value ++ .punct ';' :: rest)) :=
          known.begins.append.apart_colon
        refine (yields_optionalSign rfl colon).bind fun found some => ?_
        subst some
        have fits : type.length ≤ depth := by
          simp only [List.length_cons, List.length_append] at enough
          omega
        have read : (typeHere (nested depth) true).Reaches
            (type ++ .punct '=' :: (value ++ .punct ';' :: rest))
              (.punct '=' :: (value ++ .punct ';' :: rest)) :=
          (known.reads true depth _ fits ⟨single, by simp [sign]⟩).bind fun _ _ => reaches_emit
        simpa using read.bind fun _ _ => valued
    have pattern : (nested depth).pattern.Reaches
        (mark ++ .word x :: (typed ++ .punct '=' :: (value ++ .punct ';' :: rest)))
        (typed ++ .punct '=' :: (value ++ .punct ';' :: rest)) := by
      have ends : EndsPattern (typed ++ .punct '=' :: (value ++ .punct ';' :: rest)) := by
        rcases types with rfl | ⟨type, known, rfl⟩
        · exact .inl (by simp [sign])
        · exact .inr ⟨_, known.begins.append, rfl⟩
      simp only [List.length_cons, List.length_append] at enough
      rcases marks with rfl | rfl
      · exact (isPattern_name free).reads depth _ (by simp; omega) ends
      · exact (isPattern_mut free).reads depth _ (by simp; omega) ends
    have read : (letStatement (nested depth)).Reaches
        (.plain "let" ::
          (mark ++ .word x :: (typed ++ .punct '=' :: (value ++ .punct ';' :: rest)))) rest :=
      reaches_expectWord.bind fun _ _ => pattern.bind fun _ _ => annotated
    have spelled : .plain "let" ::
      (mark ++ .word x :: (typed ++ .punct '=' :: (value ++ [.punct ';']))) ++ rest =
        .plain "let" ::
          (mark ++ .word x :: (typed ++ .punct '=' :: (value ++ .punct ';' :: rest))) := by
      simp
    rw [spelled]
    refine yields_ahead fun _ _ =>
      (yields_attributes_stop (unsigned_word "#" (by decide))).keeping.bind
      fun found _ => ?_
    refine (isValue_word (by decide)).uncalled.bind fun call none => yields_ahead_cons
      fun joint behind _ => ?_
    subst none
    exact read.bind fun _ _ => yields_pure rfl

/-- A block is read one call deeper. -/
theorem IsBody.reaches_block (block : IsBody body) (enough : body.length < depth) :
    (nested depth).block.Reaches (within .curly body ++ rest) rest := by
  obtain ⟨depth, rfl⟩ : ∃ below, depth = below + 1 := ⟨depth - 1, by omega⟩
  exact block.reads depth rest (Nat.le_of_lt_succ enough)

/-- An expression with its own block is a statement without a semicolon. -/
theorem yields_oneStatement_block {name : String} (listed : name ∈ ["for", "if", "match"])
    (blocked : ∀ lexemes, Lexed (.plain name :: code) lexemes → blockAhead lexemes = true)
    (read : (blockExpr (nested depth)).Reaches (.plain name :: code) rest)
    (ends : EndsStatement rest) :
    (oneStatement (nested (depth + 1))).Yields (.plain name :: code) (· = false) rest := by
  have unlet : Unworded "let" (.plain name :: code) := by
    intro same
    obtain rfl : name = "let" := congrArg Ident.name (Token.word.inj (Option.some.inj same))
    exact absurd listed (by decide)
  have wider : ∀ name ∈ ["for", "if", "match"],
    name ∈ ["let", "for", "if", "match", "return"] := by decide
  have unmarked : Unsigned "#" (.plain name :: code) := unsigned_word "#" (by decide)
  refine yields_oneStatement unmarked (isValue_word (wider name listed)) unlet ?_
  refine (yields_statement_block unmarked blocked read ends).bind fun shape block => ?_
  subst block
  refine (yields_optionalSign_absent (ends.unsigned rfl (by decide))).bind fun found none => ?_
  subst none
  exact yields_pure rfl

theorem endsExpr_block : EndsExpr false (within .curly body ++ rest) := by
  simp [EndsExpr, within_append]

/-- A loop over what a value gives. -/
theorem isStatement_for (known : IsPattern pattern) (expr : IsExpr source) (block : IsBody body) :
    IsStatement (.plain "for" :: (pattern ++ .plain "in" :: (source ++ within .curly body))) where
  begins := beginsStatement_word (by decide)
  reads depth rest enough ends := by
    simp only [Code.within, List.length_cons, List.length_append, List.length_nil] at enough
    obtain ⟨depth, rfl⟩ : ∃ below, depth = below + 1 := ⟨depth - 1, by omega⟩
    simp only [List.cons_append, List.append_assoc]
    refine yields_oneStatement_block (by decide) (fun lexemes lexed => ?_) ?_ ends
    · obtain ⟨joint, behind, rfl, later⟩ := lexed.cons apart_plain
      have noAngle : Unsigned "<"
          (pattern ++ .plain "in" :: (source ++ (within .curly body ++ rest))) :=
        known.begins.unsigned (by decide) (by decide)
      rw [blockAhead, List.tail_cons, noAngle behind later]
      rfl
    · refine yields_ahead_cons fun joint behind _ => yields_ahead_cons fun joint behind _ => ?_
      refine yields_take_bind apart_plain ?_
      refine (known.patterns (by omega) (.inl (by simp))).bind fun _ _ => ?_
      refine reaches_expectWord.bind fun _ _ => ?_
      exact (expr.reads false depth _ (by omega) endsExpr_block).discard.bind fun _ _ =>
        block.reaches_block (by omega)

/-- What is done on a condition, with nothing else. -/
theorem isStatement_if (test : IsCondition condition) (block : IsBody body) :
    IsStatement (.plain "if" :: (condition ++ within .curly body)) where
  begins := beginsStatement_word (by decide)
  reads depth rest enough ends := by
    simp only [Code.within, List.length_cons, List.length_append, List.length_nil] at enough
    obtain ⟨depth, rfl⟩ : ∃ below, depth = below + 1 := ⟨depth - 1, by omega⟩
    simp only [List.cons_append, List.append_assoc]
    refine yields_oneStatement_block (by decide) (fun lexemes lexed => ?_) ?_ ends
    · obtain ⟨left, -, -, rfl⟩ := lexed
      rfl
    · have once : (do
          expectWord "if"
          discard <| (nested depth).expr false
          (nested depth).block
          if !(← optionalWord "else") then return false
          if Ahead.word "if" (← ahead) then return true
          (nested depth).block
          return false : Scan Bool).Yields
            (.plain "if" :: (condition ++ (within .curly body ++ rest))) (· = false) rest := by
        refine reaches_expectWord.bind fun _ _ => ?_
        refine (test.reads depth _ (by omega) endsExpr_block).discard.bind fun _ _ => ?_
        refine (block.reaches_block (by omega)).bind fun _ _ => ?_
        refine (yields_optionalWord_absent ends.unworded).bind fun found none => ?_
        subst none
        exact yields_pure rfl
      refine yields_ahead_cons fun joint behind _ => yields_ahead_cons fun joint behind _ => ?_
      refine reaches_repeated (· = .plain "if" :: (condition ++ (within .curly body ++ rest)))
        (fun whole same => .inl ?_) rfl
      subst same
      exact once

/-- No attribute of what stands around it stands there. -/
def Outer (rest : Code) : Prop := ∀ lexemes, rest.Lexed lexemes →
  (Ahead.sign "#" lexemes && Ahead.sign "!" lexemes.tail) = false

theorem outer_of_unmarked (unmarked : Unsigned "#" rest) : Outer rest := fun lexemes lexed => by
  rw [unmarked lexemes lexed, Bool.false_and]

theorem yields_innerAttributes_stop (outer : Outer rest) :
    (innerAttributes g).Yields rest (· = []) rest := by
  refine yields_folded_stop rfl (yields_ahead fun lexemes lexed => ?_)
  rw [outer lexemes lexed, if_neg Bool.false_ne_true]
  exact yields_pure rfl

theorem reaches_semicolons_absent (absent : Unsigned ";" rest) :
    (repeated (optionalSign ";")).Reaches rest rest :=
  reaches_repeated (· = rest)
    (fun _ same => .inl (same.symm ▸ yields_optionalSign_absent absent)) rfl

/-- One statement of a body is read, and then the body ends or goes on. -/
def round (g : Rules) : Scan Bool := do
  repeated (optionalSign ";")
  if Ahead.finished (← ahead) then return false
  let open_ ← oneStatement g
  if Ahead.finished (← ahead) then return false
  if open_ then fail "unexpected token, expected `;`"
  return true

theorem yields_round_end {d : Delimiter} :
    (round g).Yields (.closing d :: rest) (· = false) (.closing d :: rest) := by
  refine (reaches_semicolons_absent (ended_closing.unsigned (by decide))).bind fun _ _ => ?_
  refine yields_ahead fun lexemes lexed => ?_
  rw [(finished_iff lexed).mpr ended_closing]
  exact yields_pure rfl

/-- A statement at the end of a body. -/
theorem yields_round (begins : BeginsStatement whole) (read : (oneStatement g).Reaches whole rest)
    (ended : Ended rest) : (round g).Yields whole (· = false) rest := by
  refine (reaches_semicolons_absent (begins.unsigned rfl (by decide))).bind fun _ _ => ?_
  refine yields_ahead fun lexemes lexed => ?_
  rw [finished_eq_false lexed begins.not_ended]
  refine read.bind fun _ _ => yields_ahead fun lexemes lexed => ?_
  rw [(finished_iff lexed).mpr ended]
  exact yields_pure rfl

theorem yields_round_more (begins : BeginsStatement whole)
    (read : (oneStatement g).Yields whole (· = false) rest) (more : ¬Ended rest) :
    (round g).Yields whole (· = true) rest := by
  refine (reaches_semicolons_absent (begins.unsigned rfl (by decide))).bind fun _ _ => ?_
  refine yields_ahead fun lexemes lexed => ?_
  rw [finished_eq_false lexed begins.not_ended]
  refine read.bind fun open_ closed => yields_ahead fun lexemes lexed => ?_
  subst closed
  rw [finished_eq_false lexed more]
  exact yields_pure rfl

/-- Statements one after the other, and perhaps a value behind them, make up a body. -/
theorem isBody_of_parts {tail : Code} (statements : ∀ code ∈ codes, IsStatement code)
    (last : tail = [] ∨ IsTail tail) : IsBody (codes.flatten ++ tail) := by
  refine ⟨fun depth rest enough => ?_⟩
  have walk : (repeated (round (nested depth))).Reaches
    (codes.flatten ++ (tail ++ .closing .curly :: rest))
      (.closing .curly :: rest) := by
    refine reaches_repeated (fun whole => ∃ codes : List Code, (∀ code ∈ codes, IsStatement code) ∧
      (codes.flatten ++ tail).length ≤ depth ∧
        whole = codes.flatten ++ (tail ++ .closing .curly :: rest)) ?_
          ⟨codes, statements, enough, rfl⟩
    rintro _ ⟨codes, statements, enough, rfl⟩
    cases codes with
    | nil =>
      refine .inl ?_
      rcases last with rfl | value
      · exact yields_round_end
      · have begins : BeginsStatement (tail ++ .closing .curly :: rest) := value.begins.append
        exact yields_round begins (value.reads depth _ enough ended_closing) ended_closing
    | cons code codes =>
      obtain ⟨statement, statements⟩ := List.forall_mem_cons.mp statements
      have standing : codes.flatten ++ (tail ++ .closing .curly :: rest) = .closing .curly :: rest ∨
          BeginsStatement (codes.flatten ++ (tail ++ .closing .curly :: rest)) := by
        cases codes with
        | nil => exact last.imp (fun same => by rw [same]; rfl) fun value => value.begins.append
        | cons next codes =>
          rw [List.flatten_cons, List.append_assoc]
          exact .inr (statements next List.mem_cons_self).begins.append
      simp only [List.flatten_cons, List.length_append] at enough
      rw [List.flatten_cons, List.append_assoc]
      have begins : BeginsStatement
          (code ++ (codes.flatten ++ (tail ++ .closing .curly :: rest))) :=
        statement.begins.append
      have shorter : (codes.flatten ++ (tail ++ .closing .curly :: rest)).length <
          (code ++ (codes.flatten ++ (tail ++ .closing .curly :: rest))).length := by
        have some := statement.begins.length_pos
        simp only [List.length_append]
        omega
      rcases standing with ended | more
      · rw [ended] at begins ⊢
        refine .inl (yields_round begins ?_ ended_closing)
        exact (statement.reads depth _ (by omega) (.inl ended_closing)).reaches
      · refine .inr ⟨_, shorter, ⟨codes, statements, by rw [List.length_append]; omega, rfl⟩, ?_⟩
        exact yields_round_more begins (statement.reads depth _ (by omega) (.inr more))
          more.not_ended
  have body : (do
      discard <| innerAttributes (nested depth)
      repeated (round (nested depth)) : Scan Unit).Reaches
        (codes.flatten ++ (tail ++ .closing .curly :: rest)) (.closing .curly :: rest) := by
    have unmarked : Unsigned "#" (codes.flatten ++ (tail ++ .closing .curly :: rest)) := by
      cases codes with
      | nil =>
        rcases last with rfl | value
        · exact unsigned_of_head (by decide) (by simp)
        · exact value.begins.append.unsigned rfl (by decide)
      | cons code codes =>
        rw [List.flatten_cons, List.append_assoc]
        exact (statements code List.mem_cons_self).begins.append.unsigned rfl (by decide)
    exact (yields_innerAttributes_stop (outer_of_unmarked unmarked)).discard.bind fun _ _ => walk
  rw [within_append, List.append_assoc]
  exact body.within

def EndsArm (rest : Code) : Prop := Ended rest ∨ BeginsPattern rest

structure IsArm (code : Code) : Prop where
  begins : BeginsPattern code
  reads : ∀ depth rest, code.length ≤ depth → EndsArm rest →
    (arm (nested depth)).Reaches (code ++ rest) rest

theorem BeginsPattern.append (begins : BeginsPattern code) : BeginsPattern (code ++ rest) := by
  obtain ⟨token, later, rfl, kind⟩ := begins
  exact ⟨token, later ++ rest, rfl, kind⟩

theorem BeginsPattern.beginsStatement (begins : BeginsPattern code) : BeginsStatement code := by
  obtain ⟨token, later, rfl, ⟨x, rfl, other⟩ | rfl | rfl⟩ := begins
  · exact ⟨_, _, rfl, fun same => other (Token.word.inj same), nofun, by simp [sign]⟩
  · exact ⟨_, _, rfl, nofun, nofun, by decide⟩
  · exact ⟨_, _, rfl, nofun, nofun, by decide⟩

theorem EndsArm.endsStatement (ends : EndsArm rest) : EndsStatement rest :=
  ends.imp id BeginsPattern.beginsStatement

/-- An arm is a pattern and what is done for it. -/
theorem isArm_of_result {result : Code} (known : IsPattern pattern)
    (read : ∀ depth rest, result.length ≤ depth → EndsArm rest → (do
      let shape ← (nested depth).statement
      if shape == .block || Ahead.finished (← ahead) then discard <| optionalSign ","
      else expectSign "," : Scan Unit).Reaches (result ++ rest) rest) :
    IsArm (pattern ++ (sign ['=', '>'] ++ result)) where
  begins := known.begins.append
  reads depth rest enough ends := by
    simp only [List.length_append] at enough
    rw [List.append_assoc, List.append_assoc]
    have unmarked : Unsigned "#" (pattern ++ (sign ['=', '>'] ++ (result ++ rest))) :=
      known.begins.unsigned (by decide) (by decide)
    refine (yields_attributes_stop unmarked).discard.bind fun _ _ => ?_
    refine (known.patterns (by omega) (.inl (by simp [sign]))).bind fun _ _ => ?_
    refine (yields_optionalWord_absent (by simp [Unworded, sign, Token.plain])).bind
      fun found none => ?_
    subst none
    have arrow : (expectSign "=>").Reaches (sign ['=', '>'] ++ (result ++ rest)) (result ++ rest) :=
      reaches_expectPair rfl (by decide) (by simp)
    exact arrow.bind fun _ _ => read depth rest (by omega) ends

/-- An arm with a value. -/
theorem isArm_value (known : IsPattern pattern) (expr : IsExpr value) :
    IsArm (pattern ++ (sign ['=', '>'] ++ (value ++ [.punct ',']))) := by
  refine isArm_of_result known fun depth rest enough ends => ?_
  rw [List.length_append] at enough
  rw [List.append_assoc, List.singleton_append]
  have comma : EndsExpr true (.punct ',' :: rest) := by simp [EndsExpr, sign]
  refine (expr.yields_statement (by omega) comma).bind fun shape simple => ?_
  refine yields_ahead fun lexemes lexed => ?_
  have unblocked : (shape == .block) = false := by rcases simple with rfl | rfl <;> rfl
  rw [unblocked, finished_eq_false lexed (by simp [Ended])]
  exact reaches_expectSign rfl (apart_of_not_mem (by decide))

/-- An arm with a body. -/
theorem isArm_body (known : IsPattern pattern) (block : IsBody body) :
    IsArm (pattern ++ (sign ['=', '>'] ++ within .curly body)) := by
  refine isArm_of_result known fun depth rest enough ends => ?_
  simp only [Code.within, List.length_cons, List.length_append, List.length_nil] at enough
  obtain ⟨depth, rfl⟩ : ∃ below, depth = below + 1 := ⟨depth - 1, by omega⟩
  have inner : (nested depth).block.Reaches (within .curly body ++ rest) rest :=
    block.reaches_block (by omega)
  rw [within_append] at inner ⊢
  have read : (blockExpr (nested depth)).Reaches
      (.opening .curly :: (body ++ .closing .curly :: rest)) rest :=
    yields_ahead_cons fun _ _ _ => yields_ahead_cons fun _ _ _ => inner
  have unmarked : Unsigned "#" (.opening .curly :: (body ++ .closing .curly :: rest)) :=
    unsigned_of_head (by decide) (by simp)
  have blocked : ∀ lexemes, Lexed (.opening .curly :: (body ++ .closing .curly :: rest)) lexemes →
      blockAhead lexemes = true := by
    rintro _ ⟨left, -, -, rfl⟩
    rfl
  refine (yields_statement_block unmarked blocked read ends.endsStatement).bind
    fun shape block => ?_
  subst block
  refine yields_ahead fun lexemes lexed => ?_
  rw [if_pos (by rfl)]
  exact (yields_optionalSign_absent (ends.endsStatement.unsigned rfl (by decide))).discard

/-- A choice is the value of a body. -/
theorem isTail_choice {arms : List Code} (expr : IsExpr source) (each : ∀ code ∈ arms, IsArm code) :
    IsTail (.plain "match" :: (source ++ within .curly arms.flatten)) where
  begins := beginsStatement_word (by decide)
  reads depth rest enough ended := by
    simp only [Code.within, List.length_cons, List.length_append, List.length_nil] at enough
    obtain ⟨depth, rfl⟩ : ∃ below, depth = below + 1 := ⟨depth - 1, by omega⟩
    simp only [List.cons_append, List.append_assoc]
    refine (yields_oneStatement_block (by decide) (fun lexemes lexed => ?_) ?_ (.inl ended)).reaches
    · obtain ⟨left, -, -, rfl⟩ := lexed
      rfl
    have walk : (repeated do
        if Ahead.finished (← ahead) then return false
        arm (nested depth)
        return true : Scan Unit).Reaches (arms.flatten ++ .closing .curly :: rest)
          (.closing .curly :: rest) := by
      have fits : ∀ code ∈ arms, code.length ≤ depth := fun code member => by
        have shorter := (List.sublist_flatten_of_mem member).length_le
        omega
      refine reaches_repeated (fun whole => ∃ arms : List Code, (∀ code ∈ arms, IsArm code) ∧
        (∀ code ∈ arms, code.length ≤ depth) ∧ whole = arms.flatten ++ .closing .curly :: rest) ?_
        ⟨arms, each, fits, rfl⟩
      rintro _ ⟨arms, each, fits, rfl⟩
      cases arms with
      | nil =>
        refine .inl (yields_ahead fun lexemes lexed => ?_)
        rw [(finished_iff lexed).mpr ended_closing]
        exact yields_pure rfl
      | cons code arms =>
        obtain ⟨first, others⟩ := List.forall_mem_cons.mp each
        obtain ⟨short, shorts⟩ := List.forall_mem_cons.mp fits
        have ends : EndsArm (arms.flatten ++ .closing .curly :: rest) := by
          cases arms with
          | nil => exact .inl ended_closing
          | cons next arms =>
            rw [List.flatten_cons, List.append_assoc]
            exact .inr (others next List.mem_cons_self).begins.append
        rw [List.flatten_cons, List.append_assoc]
        refine .inr ⟨arms.flatten ++ .closing .curly :: rest, ?_, ⟨arms, others, shorts, rfl⟩,
          yields_ahead fun lexemes lexed => ?_⟩
        · have some := first.begins.beginsStatement.length_pos
          simp only [List.length_append]
          omega
        · rw [finished_eq_false lexed first.begins.not_ended]
          exact (first.reads depth _ short ends).bind fun _ _ => yields_pure rfl
    have unmarked : Unsigned "#" (arms.flatten ++ .closing .curly :: rest) := by
      cases arms with
      | nil => exact unsigned_of_head (by decide) (by simp)
      | cons code arms =>
        rw [List.flatten_cons, List.append_assoc]
        exact (each code List.mem_cons_self).begins.unsigned (by decide) (by decide)
    refine yields_ahead_cons fun joint behind _ => yields_ahead_cons fun joint behind _ => ?_
    refine yields_take_bind apart_plain ?_
    refine (expr.reads false depth _ (by omega) endsExpr_block).discard.bind fun _ _ => ?_
    rw [within_append]
    exact ((yields_innerAttributes_stop (outer_of_unmarked unmarked)).discard.bind
      fun _ _ => walk).within

/-- A value of a struct, each field from the variable of its name, is the value of a body. -/
theorem isTail_construct {fields : List Ident} (path : IsPath code)
    (other : code ≠ [.plain "crate"])
    (free : ∀ x ∈ fields, x.isKeyword = false) :
    IsTail (code ++ within .curly (commas (fields.map fun x => [.word x]))) where
  begins := (path.isAtom other).begins.beginsExpr.beginsStatement.append
  reads depth rest enough ended := by
    have begins : BeginsExpr code := (path.isAtom other).begins.beginsExpr
    have some := begins.length_pos
    rw [List.length_append] at enough
    obtain ⟨depth, rfl⟩ : ∃ below, depth = below + 1 := ⟨depth - 1, by omega⟩
    rw [List.append_assoc]
    have entries : ∀ code ∈ fields.map fun x => [Token.word x],
        Entry (fieldValue (nested depth)) code := by
      refine List.forall_mem_map.mpr
        fun x member => ⟨fun rest => by simp [Ended], fun rest ends => ?_⟩
      refine (yields_attributes_stop (unsigned_word "#" (by decide))).discard.bind fun _ _ => ?_
      refine yields_ahead_cons fun joint behind _ => yields_ahead_cons fun joint behind _ => ?_
      refine (yields_ident (free x member)).discard.bind fun _ _ => yields_ahead
        fun lexemes lexed => ?_
      have uncoloned : Unsigned ":" rest := ends.endsType.unsigned (by decide) (by decide)
      rw [uncoloned lexemes lexed]
      exact reaches_pure
    have listed : (Scan.within .curly (separated "," (fieldValue (nested depth)))).Reaches
        (within .curly (commas (fields.map fun x => [.word x])) ++ rest) rest := by
      rw [within_append]
      exact (reaches_separated entries ended_closing).within
    have behind : EndsPath (within .curly (commas (fields.map fun x => [.word x])) ++ rest) := by
      simp [EndsPath, Code.within, sign]
    have literal : (pathExpr (nested depth) true).Yields
        (code ++ (within .curly (commas (fields.map fun x => [.word x])) ++ rest))
          (· = .plain) rest := by
      refine yields_ahead fun lexemes lexed => ?_
      rw [path.begins.unangled lexemes lexed]
      dsimp only
      rw [if_neg Bool.false_ne_true]
      have segments : (Path.segments <$> Rules.path (nested depth) true).Reaches
          (code ++ (within .curly (commas (fields.map fun x => [.word x])) ++ rest))
          (within .curly (commas (fields.map fun x => [.word x])) ++ rest) :=
        (path.reaches behind).map fun _ _ => trivial
      refine segments.bind fun segments _ => ?_
      rw [within_append] at listed ⊢
      refine yields_ahead_cons fun joint behind _ => ?_
      exact listed.bind fun _ _ => yields_pure rfl
    have ends : EndsExpr true rest := .of_ended ended
    have unsigned : ∀ s ∈ ["#", "&", "*", "!", "-"], Unsigned s
        (code ++ (within .curly (commas (fields.map fun x => [.word x])) ++ rest)) :=
      (path.isAtom other).begins.unsigned_each
    have read : ((nested (depth + 1)).statement).Yields
        (code ++ (within .curly (commas (fields.map fun x => [.word x])) ++ rest))
          (· = .plain) rest := by
      refine (yields_attributes_stop (unsigned "#" (by decide))).discard.bind fun _ _ =>
        yields_ahead fun lexemes lexed => ?_
      rw [begins.noBlock lexed, if_neg Bool.false_ne_true]
      refine (yields_operandFrom unsigned (path.yields_atom literal)
        (yields_steps_stop (.inl ends))).bind fun shape plain => ?_
      subst plain
      exact yields_climbFrom_stop (.inl rfl) ends
    exact reaches_oneStatement_last (unsigned "#" (by decide))
      (path.isValue other behind (by simp [Wordless, Code.within])) begins.unlet read.reaches ended

end EntityGen.Code
