import EntityGen.Generated.Paths
import EntityGen.Proofs.Grammar.Statements

/-! Attributes and methods that are read wherever they stand. -/
namespace EntityGen

namespace Code

open Rules Scan

variable {code rest type path content whole : Code} {codes : List Code} {depth : Nat} {g : Rules}
  {x : Ident} {text : String} {d : Delimiter} {lexemes : List Lexeme}

structure IsAttribute (code : Code) : Prop where
  begins : ∃ later, code = .punct '#' :: .opening .square :: later
  reads : ∀ depth rest, code.length ≤ depth →
    (oneAttribute (nested depth) false).Reaches (code ++ rest) rest

/-- Nothing stands there that has to be read together with what stands around it. -/
def Loose (code : Code) : Prop := ∀ token ∈ code, token = .punct ',' ∨ ∃ x, token = .word x

theorem Loose.length_ahead (loose : Loose content) (left : Nat) :
    Ahead.length 0 (lexemesFrom left (content ++ .closing d :: rest)) = content.length := by
  induction content generalizing left with
  | nil => rfl
  | cons token content ih =>
    obtain ⟨first, later⟩ := List.forall_mem_cons.mp loose
    rcases first with rfl | ⟨x, rfl⟩
    · exact congrArg Nat.succ (ih later _)
    · exact congrArg Nat.succ (ih later _)

theorem Loose.reaches_takeAll (loose : Loose content) :
    (takeAll content.length).Reaches (content ++ rest) rest := by
  induction content with
  | nil => exact reaches_pure
  | cons token content ih =>
    obtain ⟨first, later⟩ := List.forall_mem_cons.mp loose
    have apart : Apart token (content ++ rest) := by
      rcases first with rfl | ⟨x, rfl⟩
      · exact apart_of_not_mem (by decide)
      · exact apart_word
    exact yields_take_bind apart (ih later)

theorem Loose.reaches_tree (loose : Loose content) :
    tree.Reaches (within d content ++ rest) rest := by
  rw [within_append]
  refine yields_ahead_cons fun joint behind lexed => ?_
  have everything : everything.Reaches (content ++ .closing d :: rest) (.closing d :: rest) := by
    refine yields_ahead fun lexemes lexed => ?_
    obtain ⟨left, -, -, rfl⟩ := lexed
    rw [loose.length_ahead]
    exact loose.reaches_takeAll
  exact everything.within.bind fun _ _ => reaches_pure

/-- An attribute is a name and what belongs to it. -/
theorem isAttribute_of_args {args : Code} (free : x.isKeyword = false)
    (ends : ∀ rest, EndsPath (args ++ rest))
    (read : ∀ depth rest, args.length ≤ depth →
      (attributeArgs (nested depth)).Reaches (args ++ .closing .square :: rest)
        (.closing .square :: rest)) :
    IsAttribute (.punct '#' :: within .square (.word x :: args)) where
  begins := ⟨_, rfl⟩
  reads depth rest enough := by
    simp only [Code.within, List.length_cons, List.length_append, List.length_nil] at enough
    have path : metaPath.Reaches (.word x :: (args ++ .closing .square :: rest))
        (args ++ .closing .square :: rest) := by
      refine yields_ahead_cons fun joint behind _ => ?_
      rw [if_neg (by simp [Ahead.beq_of_not_keyword free
        (by decide : keywords.contains "unsafe" = true)])]
      exact reaches_namePath (isPath_word (.inl free)) (ends _)
    have inside : (do
        let pathPos := Ahead.pos (← ahead)
        let path ← metaPath
        return (path, pathPos, ← attributeArgs (nested depth)) :
          Scan (NamePath × Pos × AttributeArgs)).Reaches
          (.word x :: (args ++ .closing .square :: rest)) (.closing .square :: rest) :=
      yields_ahead fun _ _ => path.bind fun _ _ => (read depth rest (by omega)).bind
        fun _ _ => reaches_pure
    rw [List.cons_append, within_append, List.cons_append]
    refine yields_ahead fun _ _ => Yields.bind (Yields.keeping (?_ : Reaches _ _ rest))
      fun _ _ => reaches_pure
    refine (reaches_expectSign rfl (apart_of_not_mem (by decide))).bind fun _ _ => ?_
    exact inside.within

theorem isAttribute_doc (text : String) : IsAttribute (Code.doc text) := by
  refine isAttribute_of_args (by decide) (fun rest => by simp [EndsPath, sign])
    fun depth rest enough => ?_
  refine yields_ahead_cons fun joint behind lexed => ?_
  rw [if_pos (sign_single rfl lexed)]
  have assign : Apart (.punct '=') (.literal (Quoted.quote text) :: .closing .square :: rest) :=
    apart_of_head (by simp)
  have literal := (isAtom_literal (Quoted.quote text)).isChain.isOperand.isExpr
  refine yields_take_bind assign ((yields_ahead_cons fun joint behind _ => ?_ : Reaches _ _ _).bind
    fun _ _ => reaches_pure)
  have ends : EndsExpr true (.closing .square :: rest) := .of_ended ended_closing
  exact (literal.reads true depth _ (Nat.le_of_succ_le enough) ends).discard

/-- An attribute with loose content in parentheses. -/
theorem isAttribute_list (free : x.isKeyword = false) (loose : Loose content) :
    IsAttribute (.punct '#' :: within .square (.word x :: within .round content)) := by
  refine isAttribute_of_args free (fun rest => by simp [EndsPath, within_append, sign])
    fun depth rest _ => ?_
  have tree : tree.Reaches (within .round content ++ .closing .square :: rest)
      (.closing .square :: rest) :=
    loose.reaches_tree
  rw [within_append] at tree ⊢
  exact yields_ahead_cons fun joint behind _ => tree.discard.bind fun _ _ => reaches_pure

theorem loose_commas : {codes : List Code} → (∀ code ∈ codes, Loose code) → Loose (commas codes)
  | [], _ => List.forall_mem_nil _
  | [code], each => by
    rw [commas_singleton]
    exact each code List.mem_cons_self
  | code :: next :: others, each => by
    obtain ⟨first, later⟩ := List.forall_mem_cons.mp each
    rw [commas_cons_cons]
    exact List.forall_mem_append.mpr
      ⟨first, List.forall_mem_cons.mpr ⟨.inl rfl, loose_commas later⟩⟩

theorem isAttribute_derive (each : ∀ code ∈ codes, Loose code) : IsAttribute (Code.derive codes) :=
  isAttribute_list (by decide) (loose_commas each)

theorem isAttribute_allow : IsAttribute (Code.allow [.word x]) :=
  isAttribute_list (by decide) (by simp [Loose])

theorem reaches_attributes (each : ∀ code ∈ codes, IsAttribute code)
    (enough : codes.flatten.length ≤ depth)
    (unmarked : Unsigned "#" rest) :
    (attributes (nested depth)).Reaches (codes.flatten ++ rest) rest := by
  refine yields_folded (fun _ whole => ∃ codes : List Code, (∀ code ∈ codes, IsAttribute code) ∧
    codes.flatten.length ≤ depth ∧ whole = codes.flatten ++ rest) ?_ ⟨codes, each, enough, rfl⟩
  rintro found _ ⟨codes, each, enough, rfl⟩
  cases codes with
  | nil =>
    refine .inl ⟨trivial, yields_ahead fun lexemes lexed => ?_⟩
    rw [unmarked lexemes lexed, if_neg Bool.false_ne_true]
    exact yields_pure rfl
  | cons code codes =>
    obtain ⟨first, others⟩ := List.forall_mem_cons.mp each
    rw [List.flatten_cons, List.length_append] at enough
    obtain ⟨later, spelled⟩ := first.begins
    have read := first.reads depth (codes.flatten ++ rest) (by omega)
    rw [List.flatten_cons, List.append_assoc]
    rw [spelled] at read ⊢
    refine .inr ⟨codes.flatten ++ rest, ?_, yields_ahead_cons fun joint behind lexed => ?_⟩
    · simp only [List.length_append, List.length_cons]
      omega
    · rw [if_pos (sign_single rfl lexed)]
      exact read.bind fun _ _ => yields_pure ⟨_, rfl, codes, others, by omega, rfl⟩

/-- What an item in generated code begins with: a word, or an attribute of the item. -/
def BeginsItem (code : Code) : Prop :=
  ∃ token later, code = token :: later ∧ ((∃ x, token = .word x) ∨
    token = .punct '#' ∧ ∃ more, later = .opening .square :: more)

theorem BeginsItem.append (begins : BeginsItem code) : BeginsItem (code ++ rest) := by
  obtain ⟨token, later, rfl, kind⟩ := begins
  refine ⟨token, later ++ rest, rfl, kind.imp_right ?_⟩
  rintro ⟨same, more, rfl⟩
  exact ⟨same, more ++ rest, rfl⟩

theorem BeginsItem.length_pos (begins : BeginsItem code) : 0 < code.length := by
  obtain ⟨token, later, rfl, -⟩ := begins
  exact Nat.succ_pos _

theorem BeginsItem.not_ended (begins : BeginsItem code) : ¬Ended code := by
  obtain ⟨token, later, rfl, kind⟩ := begins
  intro ended
  obtain ⟨d, rfl⟩ := ended _ rfl
  rcases kind with ⟨x, same⟩ | ⟨same, -⟩ <;> cases same

theorem BeginsItem.outer (begins : BeginsItem code) : Outer code := by
  rintro _ ⟨left, -, -, rfl⟩
  obtain ⟨token, later, rfl, ⟨x, rfl⟩ | ⟨rfl, more, rfl⟩⟩ := begins
  · rfl
  · rfl

theorem beginsItem_attributed (each : ∀ code ∈ codes, IsAttribute code) (begins : BeginsItem code) :
    BeginsItem (codes.flatten ++ code) := by
  cases codes with
  | nil => exact begins
  | cons first codes =>
    obtain ⟨later, rfl⟩ := (each first List.mem_cons_self).begins
    exact ⟨_, _, rfl, .inr ⟨rfl, _, rfl⟩⟩

theorem reaches_visibility_absent (absent : Unworded "pub" rest) :
    visibility.Reaches rest rest := by
  refine (yields_optionalWord_absent absent).bind fun found none => ?_
  subst none
  exact reaches_pure

theorem reaches_visibility (other : x ≠ ⟨"pub", false⟩) {mark : Code}
    (marks : mark = [] ∨ mark = [.plain "pub"]) :
    visibility.Reaches (mark ++ .word x :: rest) (.word x :: rest) := by
  rcases marks with rfl | rfl
  · exact reaches_visibility_absent fun same => other (Token.word.inj (Option.some.inj same))
  · refine yields_optionalWord.bind fun found some => ?_
    subst some
    exact yields_ahead_cons fun joint behind _ => reaches_pure

/-- The word does not stand there, and nothing else is read in its place. -/
theorem reaches_optionalWords {names : List String} (absent : ∀ name ∈ names, Unworded name rest) :
    (forIn names PUnit.unit fun name _ => do
      discard (optionalWord name)
      return ForInStep.yield PUnit.unit : Scan PUnit).Reaches rest rest := by
  induction names with
  | nil => exact reaches_pure
  | cons name names ih =>
    obtain ⟨first, later⟩ := List.forall_mem_cons.mp absent
    rw [List.forIn_cons]
    have once : (do
        discard (optionalWord name)
        return ForInStep.yield PUnit.unit : Scan (ForInStep PUnit)).Yields rest
          (· = .yield PUnit.unit) rest :=
      (yields_optionalWord_absent first).discard.bind fun _ _ => yields_pure rfl
    refine once.bind fun step same => ?_
    subst same
    exact ih later

theorem reaches_receiver {reference mark : Code}
    (references : reference = [] ∨ reference = [.punct '&'])
    (marks : mark = [] ∨ mark = [.plain "mut"]) (untyped : Unsigned ":" rest) :
    (receiver g).Reaches (reference ++ (mark ++ .plain "self" :: rest)) rest := by
  have unmarked (reference : Bool) : (do
      discard <| optionalWord "mut"
      expectWord "self"
      if !reference then
        if ← optionalSign ":" then typeHere g true : Scan Unit).Reaches
          (mark ++ .plain "self" :: rest) rest := by
    have named : (do
        expectWord "self"
        if !reference then
          if ← optionalSign ":" then typeHere g true : Scan Unit).Reaches
            (.plain "self" :: rest) rest := by
      refine reaches_expectWord.bind fun _ _ => ?_
      cases reference with
      | true => exact reaches_pure
      | false =>
        refine (yields_optionalSign_absent untyped).bind fun found none => ?_
        subst none
        exact reaches_pure
    rcases marks with rfl | rfl
    · exact (yields_optionalWord_absent (by simp [Unworded, Token.plain])).discard.bind
        fun _ _ => named
    · exact yields_optionalWord.discard.bind fun _ _ => named
  have whole : ∃ x later, mark ++ .plain "self" :: rest = .word x :: later := by
    rcases marks with rfl | rfl <;> exact ⟨_, _, rfl⟩
  obtain ⟨x, later, spelled⟩ := whole
  rw [spelled] at unmarked ⊢
  rcases references with rfl | rfl
  · refine (yields_optionalSign_absent (unsigned_of_head (by decide) (by simp))).bind
      fun found none => ?_
    subst none
    exact yields_ahead_cons fun joint behind _ => unmarked false
  · have apart : Apart (.punct '&') (.word x :: later) :=
      apart_of_head (by simp)
    refine (yields_optionalSign rfl apart).bind fun found some => ?_
    subst some
    exact yields_ahead_cons fun joint behind _ => unmarked true

/-- A parameter that is the value of the method. -/
theorem entry_receiver {kind : Receiver} (member : code ∈ kind.codes) :
    Entry (parameter (nested depth)) code := by
  have spelled : ∃ reference mark, code = reference ++ (mark ++ [.plain "self"]) ∧
      (reference = [] ∨ reference = [.punct '&']) ∧ (mark = [] ∨ mark = [.plain "mut"]) := by
    cases kind with
    | absent => cases member
    | ref => exact ⟨[.punct '&'], [], List.mem_singleton.mp member, .inr rfl, .inl rfl⟩
    | refMut =>
      exact ⟨[.punct '&'], [.plain "mut"], List.mem_singleton.mp member, .inr rfl, .inr rfl⟩
    | value => exact ⟨[], [], List.mem_singleton.mp member, .inl rfl, .inl rfl⟩
    | mutValue => exact ⟨[], [.plain "mut"], List.mem_singleton.mp member, .inl rfl, .inr rfl⟩
  obtain ⟨reference, mark, rfl, references, marks⟩ := spelled
  have begins {rest : Code} :
    ∃ token later, reference ++ (mark ++ [.plain "self"]) ++ rest = token :: later ∧
      (token = .punct '&' ∨ token = .plain "mut" ∨ token = .plain "self") := by
    rcases references with rfl | rfl
    · rcases marks with rfl | rfl
      · exact ⟨_, _, rfl, .inr (.inr rfl)⟩
      · exact ⟨_, _, rfl, .inr (.inl rfl)⟩
    · exact ⟨_, _, rfl, .inl rfl⟩
  refine ⟨fun rest ended => ?_, fun rest ends => ?_⟩
  · obtain ⟨token, later, same, kind⟩ := @begins rest
    rw [same] at ended
    obtain ⟨d, rfl⟩ := ended _ rfl
    rcases kind with same | same | same <;> cases same
  · have read : (receiver (nested depth)).Reaches (reference ++ (mark ++ [.plain "self"]) ++ rest)
        rest := by
      simpa using reaches_receiver references marks (ends.endsType.unsigned (by decide) (by decide))
    obtain ⟨token, later, same, kind⟩ := @begins rest
    rw [same] at read ⊢
    have unsigned {s : String} (written : s ≠ "") (other : ∀ c ∈ s.toList.head?, c ≠ '&') :
        Unsigned s (token :: later) := by
      refine unsigned_of_head written fun c head same => other c head ?_
      obtain rfl := Option.some.inj same
      rcases kind with same | same | same
      · exact Token.punct.inj same
      · cases same
      · cases same
    refine (yields_attributes_stop (unsigned (by decide) (by decide))).discard.bind fun _ _ => ?_
    refine yields_ahead fun lexemes lexed => ?_
    rw [unsigned (s := "...") (by decide) (by decide) lexemes lexed, if_neg Bool.false_ne_true]
    refine read.attempt.bind fun found some => ?_
    obtain ⟨_, rfl, -⟩ := some
    exact reaches_pure

/-- A parameter with a name and a type. -/
theorem entry_param (free : x.isKeyword = false) (known : IsType type)
    (enough : type.length < depth) :
    Entry (parameter (nested depth)) (.word x :: .punct ':' :: type) where
  begins rest := by simp [Ended]
  reads rest ends := by
    have other {name : String} (keyword : keywords.contains name = true) {later : Code} :
        Unworded name (.word x :: later) := by
      intro same
      obtain rfl : x = ⟨name, false⟩ := Token.word.inj (Option.some.inj same)
      rw [Ident.isKeyword, Bool.not_false, Bool.true_and, keyword] at free
      cases free
    have refused : (receiver (nested depth)).Refuses (.word x :: .punct ':' :: (type ++ rest)) := by
      refine (yields_optionalSign_absent (unsigned_of_head (by decide) (by simp))).bind_refuses
        fun found none => ?_
      subst none
      refine refuses_ahead fun lexemes lexed => ?_
      refine (yields_optionalWord_absent (other (by decide))).discard.bind_refuses fun _ _ => ?_
      exact (refuses_expectWord (other (by decide))).bind
    refine (yields_attributes_stop (unsigned_word "#" (by decide))).discard.bind fun _ _ => ?_
    refine yields_ahead_cons fun joint behind _ => ?_
    rw [if_neg (by simp)]
    refine refused.attempt.bind fun found none => ?_
    subst none
    have begins : BeginsType (type ++ rest) := known.begins.append
    refine ((isPattern_name free).reads depth _ (by simp; omega) (.inr ⟨_, begins, rfl⟩)).bind
      fun _ _ => ?_
    refine (reaches_expectSign rfl begins.apart_colon).bind fun _ _ => yields_ahead
      fun lexemes lexed => ?_
    have undotted : Unsigned "..." (type ++ rest) := begins.unsigned rfl (by decide)
    rw [undotted lexemes lexed, if_neg Bool.false_ne_true]
    exact (known.reads true depth rest (by omega) ends.endsType).bind fun _ _ => reaches_emit

def bounded (x : Ident) (bound : Code) : Code := Code.applied [] (.word x :: .punct ':' :: bound)

theorem reaches_generics (free : x.isKeyword = false) (bound : IsTypePath path)
    (enough : path.length ≤ depth)
    (single : ¬rest.Doubled) : (generics (nested depth)).Reaches (bounded x path ++ rest) rest := by
  have spelled : bounded x path ++ rest = .punct '<' :: .word x :: .punct ':' ::
      (path ++ .punct '>' :: rest) := by
    simp [bounded, applied]
  have closing : EndsType (.punct '>' :: rest) := ⟨not_doubled_of_head (by simp), by simp [sign]⟩
  have opening : Apart (.punct '<') (.word x :: .punct ':' :: (path ++ .punct '>' :: rest)) :=
    apart_of_head (by simp)
  have begins : BeginsType (path ++ .punct '>' :: rest) := (bound.begins _).beginsType
  have unconst : Unworded "const" (.word x :: .punct ':' :: (path ++ .punct '>' :: rest)) := by
    intro same
    obtain rfl : x = ⟨"const", false⟩ := Token.word.inj (Option.some.inj same)
    exact absurd free (by decide)
  rw [spelled]
  refine yields_ahead_cons fun joint behind lexed => ?_
  rw [sign_single rfl lexed]
  refine Yields.bind (Yields.captured (?_ : Reaches _ _ rest)) fun found _ => ?_
  · refine (reaches_expectSign rfl opening).bind fun _ _ => yields_ahead_cons
      fun joint behind _ => ?_
    refine Yields.bind (?_ : Reaches _ _ (.punct '>' :: rest)) fun _ _ => ?_
    · refine reaches_repeated (· = .word x :: .punct ':' :: (path ++ .punct '>' :: rest))
        (fun whole same => .inl ?_) rfl
      subst same
      refine yields_ahead_cons fun joint behind _ => ?_
      rw [if_neg (by simp)]
      refine (yields_attributes_stop (unsigned_word "#" (by decide))).discard.bind fun _ _ => ?_
      refine yields_ahead_cons fun joint behind _ => ?_
      refine (yields_optionalWord_absent unconst).bind fun found none => ?_
      subst none
      refine (yields_ident free).discard.bind fun _ _ => ?_
      refine (yields_optionalSign rfl begins.apart_colon).bind fun found some => ?_
      subst some
      refine yields_ahead fun lexemes lexed => ?_
      have noEnd : Ahead.signs [",", ">", "="] lexemes = false := by
        have noComma : Unsigned "," (path ++ .punct '>' :: rest) := begins.unsigned rfl (by decide)
        have noAngle : Unsigned ">" (path ++ .punct '>' :: rest) := begins.unsigned rfl (by decide)
        have noEquals : Unsigned "=" (path ++ .punct '>' :: rest) := begins.unsigned rfl (by decide)
        simp [noComma lexemes lexed, noAngle lexemes lexed, noEquals lexemes lexed]
      rw [noEnd]
      refine (bound.bounds enough closing).bind fun _ _ => ?_
      refine (yields_optionalSign_absent (unsigned_of_head (by decide) (by simp))).bind
        fun found none => ?_
      subst none
      refine yields_ahead_cons fun joint behind lexed => ?_
      rw [if_pos (sign_single rfl lexed)]
      exact yields_pure rfl
    · exact (reaches_expectSign rfl ⟨fun listed => absurd listed (by decide), fun _ => single⟩).bind
        fun _ _ => reaches_pure
  · dsimp only
    split
    · exact reaches_emit.bind fun _ _ => reaches_pure
    · exact reaches_pure

theorem reaches_generics_absent (absent : Unsigned "<" rest) : (generics g).Reaches rest rest := by
  refine yields_ahead fun lexemes lexed => ?_
  rw [absent lexemes lexed]
  exact reaches_pure

theorem yields_whereClause_absent (absent : Unworded "where" rest) :
    (whereClause g).Yields rest (· = false) rest := by
  refine yields_ahead fun lexemes lexed => ?_
  rw [absent.word_eq lexed]
  exact yields_pure rfl

end Code

open Code

structure Method.Readable (method : Method) : Prop where
  attrs : ∀ code ∈ method.attrs, IsAttribute code
  free : method.name.isKeyword = false
  generics : method.generics = [] ∨ ∃ x path, x.isKeyword = false ∧ IsTypePath path ∧
    method.generics = bounded x path
  params : ∀ param ∈ method.params, param.1.isKeyword = false ∧ IsType param.2
  result : ∀ type ∈ method.result, IsType type
  body : ∀ body ∈ method.body, IsBody (Body.code .method body)

namespace Method

open Rules Scan

variable {method : Method} {depth : Nat} {rest : Code}

/-- The head of a method is its name, its parameters, and a type behind an arrow if it gives
anything. -/
theorem Readable.head_eq (readable : method.Readable) :
    ∃ params given, (∀ code ∈ params, code ∈ method.receiver.codes ∨
        ∃ x type, x.isKeyword = false ∧ IsType type ∧ code = .word x :: .punct ':' :: type) ∧
      (given = [] ∨ ∃ type, IsType type ∧ given = .punct '-' :: .punct '>' :: type) ∧
      method.head = .word method.name ::
        (method.generics ++ (Code.within .round (commas params) ++ given)) := by
  have params : ∀ code ∈ method.receiver.codes ++ method.params.map
    fun param => .word param.1 :: .punct ':' :: param.2,
      code ∈ method.receiver.codes ∨
        ∃ x type, x.isKeyword = false ∧ IsType type ∧ code = .word x :: .punct ':' :: type := by
    refine List.forall_mem_append.mpr
      ⟨fun code member => .inl member, List.forall_mem_map.mpr fun param member => ?_⟩
    obtain ⟨free, known⟩ := readable.params param member
    exact .inr ⟨param.1, param.2, free, known, rfl⟩
  cases result : method.result with
  | none => exact ⟨_, [], params, .inl rfl, by simp [head, result]⟩
  | some type =>
    exact ⟨_, _, params, .inr ⟨type, readable.result type result, rfl⟩,
      by simp [head, result, sign]⟩

/-- The head of a method is read up to its body. -/
theorem Readable.reaches_signature (readable : method.Readable)
    (enough : method.head.length ≤ depth)
    (ends : rest.head? = some (.opening .curly) ∨ rest.head? = some (.punct ';')) :
    (Rules.signature (nested depth)).Reaches (.plain "fn" :: (method.head ++ rest)) rest := by
  have typeEnds : EndsType rest := by
    refine ⟨not_doubled_of_head ?_, fun token here => ?_⟩
    · rcases ends with same | same <;> rw [same] <;> nofun
    · rcases ends with same | same <;> rw [same] at here <;> cases here <;> decide
  have unbounded : Unworded "where" rest := by
    intro same
    rcases ends with here | here <;> rw [here] at same <;> cases same
  obtain ⟨params, given, listed, kinds, spelled⟩ := readable.head_eq
  rw [spelled] at enough ⊢
  simp only [Code.within, List.length_cons, List.length_append, List.length_nil] at enough
  have result : (Rules.result (nested depth) true).Reaches (given ++ rest) rest := by
    rcases kinds with rfl | ⟨type, known, rfl⟩
    · refine (yields_optionalSign_absent (typeEnds.unsigned (by decide) (by decide))).bind
        fun found none => ?_
      subst none
      exact reaches_pure
    · simp only [List.length_cons] at enough
      refine (yields_optionalPair rfl (by decide) (by simp)).bind fun found present => ?_
      subst present
      exact (known.reads true depth rest (by omega) typeEnds).bind fun _ _ => reaches_emit
  have parameters : (Scan.within .round (separated "," (parameter (nested depth)))).Reaches
      (Code.within .round (commas params) ++ (given ++ rest)) (given ++ rest) := by
    rw [within_append]
    refine (reaches_separated (fun code member => ?_) ended_closing).within
    have shorter := length_le_commas member
    rcases listed code member with receiver | ⟨x, type, free, known, rfl⟩
    · exact entry_receiver receiver
    · simp only [List.length_cons] at shorter
      exact entry_param free known (by omega)
  have general : (discard <| Rules.generics (nested depth)).Reaches
      (method.generics ++ (Code.within .round (commas params) ++ (given ++ rest)))
      (Code.within .round (commas params) ++ (given ++ rest)) := by
    rw [within_append]
    rcases readable.generics with none | ⟨x, path, free, bound, some⟩
    · rw [none]
      exact (reaches_generics_absent (unsigned_of_head (by decide) (by simp))).discard
    · rw [some] at enough ⊢
      simp only [bounded, applied, List.length_cons, List.length_append, List.length_nil] at enough
      exact (reaches_generics free bound (by omega) (not_doubled_of_head (by simp))).discard
  refine (reaches_optionalWords (by simp [Unworded, Token.plain])).bind fun _ _ => ?_
  refine (yields_optionalWord_absent (by simp [Unworded, Token.plain])).bind fun found none => ?_
  subst none
  refine reaches_expectWord.bind fun _ _ => yields_ahead fun _ _ => ?_
  simp only [List.cons_append, List.append_assoc]
  refine (yields_ident readable.free).bind fun _ _ => general.bind fun _ _ => parameters.bind
    fun _ _ => ?_
  exact result.bind fun _ _ => (yields_whereClause_absent unbounded).discard.bind
    fun _ _ => reaches_pure

/-- A method is its attributes, its visibility, its head, and its body if it has one. -/
theorem Readable.code_eq (readable : method.Readable) :
    ∃ attrs : List Code, ∃ mark tail,
      (∀ code ∈ attrs, IsAttribute code) ∧ (mark = [] ∨ mark = [.plain "pub"]) ∧
      (tail = [.punct ';'] ∨ ∃ body, IsBody body ∧ tail = Code.within .curly body) ∧
      method.code = attrs.flatten ++ (mark ++ .plain "fn" :: (method.head ++ tail)) := by
  cases written : method.body with
  | none => exact ⟨method.attrs, [], _, readable.attrs, .inl rfl, .inl rfl, by simp [code, written]⟩
  | some body =>
    have tail := readable.body body written
    by_cases visible : method.isPublic
    · exact ⟨method.attrs, _, _, readable.attrs, .inr rfl, .inr ⟨_, tail, rfl⟩,
        by simp [code, written, visible]⟩
    · exact ⟨method.attrs, _, _, readable.attrs, .inl rfl, .inr ⟨_, tail, rfl⟩,
        by simp [code, written, visible]⟩

theorem Readable.begins (readable : method.Readable) : BeginsItem method.code := by
  obtain ⟨attrs, mark, tail, each, marks, -, spelled⟩ := readable.code_eq
  rw [spelled]
  refine beginsItem_attributed each ?_
  rcases marks with rfl | rfl <;> exact ⟨_, _, rfl, .inl ⟨_, rfl⟩⟩

/-- A method is read where it belongs to a type. -/
theorem Readable.reaches (readable : method.Readable) (enough : method.code.length ≤ depth) :
    (associated (nested depth)).Reaches (method.code ++ rest) rest := by
  obtain ⟨attrs, mark, tail, each, marks, tails, spelled⟩ := readable.code_eq
  rw [spelled] at enough ⊢
  simp only [List.length_append, List.length_cons] at enough
  have whole : (function (nested depth)).Reaches (.plain "fn" :: (method.head ++ (tail ++ rest)))
      rest := by
    have ends : (tail ++ rest).head? = some (.opening .curly) ∨
        (tail ++ rest).head? = some (.punct ';') := by
      rcases tails with rfl | ⟨body, -, rfl⟩
      · exact .inr rfl
      · exact .inl rfl
    refine (readable.reaches_signature (by omega) ends).bind fun found _ => ?_
    rcases tails with rfl | ⟨body, known, rfl⟩
    · refine (yields_optionalSign rfl (apart_of_not_mem (by decide))).bind fun found some => ?_
      subst some
      exact reaches_pure
    · simp only [Code.within, List.length_cons, List.length_append, List.length_nil] at enough
      have block : (nested depth).block.Reaches (Code.within .curly body ++ rest) rest :=
        known.reaches_block (by omega)
      rw [within_append] at block ⊢
      refine (yields_optionalSign_absent (unsigned_of_head (by decide) (by simp))).bind
        fun found none => ?_
      subst none
      exact block.bind fun _ _ => reaches_pure
  have unmarked : Unsigned "#" (mark ++ .plain "fn" :: (method.head ++ (tail ++ rest))) := by
    rcases marks with rfl | rfl <;> exact unsigned_word "#" (by decide)
  simp only [List.append_assoc, List.cons_append]
  refine (reaches_attributes each (by omega) unmarked).discard.bind fun _ _ => ?_
  refine (reaches_visibility (by decide) marks).bind fun _ _ => ?_
  refine yields_ahead_cons fun joint behind _ => yields_ahead_cons fun joint behind _ => ?_
  exact yields_ahead_cons fun joint behind _ => whole.discard

end Method
end EntityGen
