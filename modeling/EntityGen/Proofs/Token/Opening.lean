import EntityGen.Proofs.Token.Scanning

/-! What an expression begins with. Whatever rule reads an expression, it takes the token ahead
first and puts it into the record. A step behind an operand does so as well or takes nothing, so
that an expression that leaves one token in the record is that token. -/
namespace EntityGen

namespace Scan

variable {α β : Type} {cursor middle after : Cursor}

/-- What was passed stays in the record. -/
theorem Reads.recorded {scan : Scan α} {a : α} (reads : scan.Reads cursor a after) :
    cursor.seen <:+ after.seen := by
  unfold Reads run at reads
  cases here : scan cursor with
  | error =>
    rw [here] at reads
    cases reads
  | ok found =>
    rw [here] at reads
    obtain ⟨-, rfl⟩ := Prod.mk.inj (Except.ok.inj reads)
    exact found.recorded

/-- The token ahead of the one cursor is in the record of the other. -/
def Opened (cursor after : Cursor) : Prop :=
  ∃ lexeme behind, cursor.rest = lexeme :: behind ∧
    .token lexeme.token :: cursor.seen <:+ after.seen

theorem Opened.reads {scan : Scan α} {a : α} (opened : Opened cursor middle)
    (reads : scan.Reads middle a after) : Opened cursor after := by
  obtain ⟨lexeme, behind, left, seen⟩ := opened
  exact ⟨lexeme, behind, left, seen.trans reads.recorded⟩

def Opens (scan : Scan α) : Prop :=
  ∀ cursor a after, scan.Reads cursor a after → Opened cursor after

/-- The scan takes the token ahead first, or it takes nothing. -/
def MayOpen (scan : Scan α) : Prop :=
  ∀ cursor a after, scan.Reads cursor a after → after = cursor ∨ Opened cursor after

theorem Opens.mayOpen {scan : Scan α} (opens : scan.Opens) : scan.MayOpen :=
  fun cursor a after reads => .inr (opens cursor a after reads)

section Composition

variable {scan other : Scan α} {next : α → Scan β} {sign : String}

theorem Opens.bind (opens : scan.Opens) : (scan >>= next).Opens := by
  intro cursor b after reads
  obtain ⟨a, middle, first, second⟩ := reads_bind.mp reads
  exact (opens cursor a middle first).reads second

theorem MayOpen.bind_opens (may : scan.MayOpen) (opens : ∀ a, (next a).Opens) :
    (scan >>= next).Opens := by
  intro cursor b after reads
  obtain ⟨a, middle, first, second⟩ := reads_bind.mp reads
  rcases may cursor a middle first with rfl | opened
  · exact opens a _ b after second
  · exact opened.reads second

theorem MayOpen.bind (may : scan.MayOpen) (later : ∀ a, (next a).MayOpen) :
    (scan >>= next).MayOpen := by
  intro cursor b after reads
  obtain ⟨a, middle, first, second⟩ := reads_bind.mp reads
  rcases may cursor a middle first with rfl | opened
  · exact later a _ b after second
  · exact .inr (opened.reads second)

theorem Opens.map {f : α → β} (opens : scan.Opens) : (f <$> scan).Opens := by
  intro cursor b after reads
  obtain ⟨a, first, -⟩ := reads_map.mp reads
  exact opens cursor a after first

theorem Opens.discard (opens : scan.Opens) : (discard scan).Opens := by
  intro cursor u after reads
  obtain ⟨a, first⟩ := reads_discard.mp reads
  exact opens cursor a after first

theorem MayOpen.discard (may : scan.MayOpen) : (Functor.discard scan).MayOpen := by
  intro cursor u after reads
  obtain ⟨a, first⟩ := reads_discard.mp reads
  exact may cursor a after first

theorem mayOpen_pure (a : α) : (pure a : Scan α).MayOpen :=
  fun _ _ _ reads => .inl (reads_pure.mp reads).2

theorem mayOpen_ahead : ahead.MayOpen := fun _ _ _ reads => .inl (reads_ahead.mp reads).2

theorem opens_ahead {next : List Lexeme → Scan β} (opens : ∀ rest, (next rest).Opens) :
    (ahead >>= next).Opens := mayOpen_ahead.bind_opens opens

theorem opens_ite {condition : Prop} [Decidable condition] (first : scan.Opens)
    (second : other.Opens) : (if condition then scan else other).Opens := by
  split
  · exact first
  · exact second

theorem mayOpen_ite {condition : Prop} [Decidable condition] (first : scan.MayOpen)
    (second : other.MayOpen) : (if condition then scan else other).MayOpen := by
  split
  · exact first
  · exact second

theorem opens_failAt (message : String) : (failAt message : Scan α).Opens :=
  fun _ _ _ reads => absurd reads not_reads_failAt

theorem opens_fail (message : String) : (fail message : Scan α).Opens :=
  fun _ _ _ reads => absurd reads not_reads_fail

theorem opens_take : take.Opens := by
  intro cursor token after reads
  obtain ⟨lexeme, -, passes⟩ := reads_take.mp reads
  exact ⟨lexeme, after.rest, passes.rest, by rw [passes.seen]; exact List.suffix_refl _⟩

theorem opens_takeAll {count : Nat} (some : count ≠ 0) : (takeAll count).Opens := by
  obtain ⟨count, rfl⟩ := Nat.exists_eq_succ_of_ne_zero some
  exact opens_take.discard.bind

theorem opens_expectSign (written : sign.length ≠ 0) : (expectSign sign).Opens :=
  opens_ahead fun _ => opens_ite (opens_takeAll written) (opens_failAt _)

theorem opens_expectWord (name : String) : (expectWord name).Opens :=
  opens_ahead fun _ => opens_ite opens_take.discard (opens_failAt _)

theorem mayOpen_optionalSign (written : sign.length ≠ 0) : (optionalSign sign).MayOpen :=
  mayOpen_ahead.bind fun _ => mayOpen_ite (opens_takeAll written).bind.mayOpen (mayOpen_pure _)

theorem opened_of_optionalSign (written : sign.length ≠ 0)
    (reads : (optionalSign sign).Reads cursor true after) : Opened cursor after := by
  rw [optionalSign, reads_ahead_bind] at reads
  split at reads
  next => exact (opens_takeAll written).bind cursor true after reads
  next => cases reads

theorem mayOpen_optionalWord (name : String) : (optionalWord name).MayOpen :=
  mayOpen_ahead.bind fun _ => mayOpen_ite opens_take.discard.bind.mayOpen (mayOpen_pure _)

theorem opens_anyWord : anyWord.Opens := by
  refine opens_ahead fun rest => ?_
  cases Ahead.word? rest with
  | none => exact opens_fail _
  | some => exact opens_take.discard.bind

theorem opens_ident : ident.Opens := by
  refine opens_ahead fun rest => ?_
  cases Ahead.word? rest with
  | none => exact opens_fail _
  | some => exact opens_ite (opens_fail _) opens_take.discard.bind

theorem opens_within {d : Delimiter} : (within d scan).Opens := by
  refine opens_ahead fun rest => ?_
  split
  · exact (opens_fail _).bind
  · exact opens_take.discard.bind

/-- Where a sign may stand, it opens what is read, or what stands there without it does. -/
theorem opens_optionalSign_bind {next : Bool → Scan β} (written : sign.length ≠ 0)
    (opens : (next false).Opens) : (optionalSign sign >>= next).Opens := by
  intro cursor b after reads
  obtain ⟨present, middle, first, second⟩ := reads_bind.mp reads
  cases present with
  | true => exact (opened_of_optionalSign written first).reads second
  | false =>
    obtain ⟨-, rfl⟩ := reads_optionalSign_false.mp first
    exact opens _ b after second

theorem reads_captured {pieces : List Piece} {a : α} :
    (captured scan).Reads cursor (a, pieces) after ↔
      ∃ inner, scan.Reads ⟨cursor.rest, []⟩ a inner ∧ pieces = inner.seen.reverse ∧
        after = ⟨inner.rest, cursor.seen⟩ := by
  have passed : run (captured scan) cursor = (run scan ⟨cursor.rest, []⟩).map fun found =>
      ((found.1, found.2.seen.reverse), ⟨found.2.rest, cursor.seen⟩) := by
    unfold run captured
    cases scan ⟨cursor.rest, []⟩ <;> rfl
  unfold Reads
  rw [passed]
  cases run scan ⟨cursor.rest, []⟩ with
  | error =>
    constructor
    · intro done
      cases done
    · rintro ⟨_, same, -⟩
      cases same
  | ok found =>
    constructor
    · intro done
      obtain ⟨both, rfl⟩ := Prod.mk.inj (Except.ok.inj done)
      obtain ⟨rfl, rfl⟩ := Prod.mk.inj both
      exact ⟨found.2, rfl, rfl, rfl⟩
    · rintro ⟨inner, same, rfl, rfl⟩
      obtain rfl := Except.ok.inj same
      rfl

/-- What a scan keeps is put into the record behind what was there. -/
theorem Opens.keeping (opens : scan.Opens) : (keeping scan).Opens := by
  intro cursor b after reads
  obtain ⟨⟨a, pieces⟩, middle, first, second⟩ := reads_bind.mp reads
  obtain ⟨_, emitted, put, result⟩ := reads_bind.mp second
  obtain ⟨-, rfl⟩ := reads_pure.mp result
  obtain ⟨inner, read, rfl, rfl⟩ := reads_captured.mp first
  obtain ⟨lexeme, behind, left, seen⟩ := opens _ a inner read
  cases put
  refine ⟨lexeme, behind, left, ?_⟩
  obtain ⟨later, same⟩ := seen
  exact ⟨later, by simp [← same]⟩

theorem Opens.repeated {step : Scan Bool} (opens : step.Opens) : (repeated step).Opens :=
  opens_ahead fun _ => opens.bind

theorem MayOpen.folded {step : α → Scan (Option α)} (may : ∀ a, (step a).MayOpen) (a : α) :
    (folded step a).MayOpen := by
  refine mayOpen_ahead.bind fun rest => ?_
  generalize rest.length + 1 = fuel
  induction fuel generalizing a with
  | zero => exact mayOpen_pure a
  | succ fuel ih =>
    refine (may a).bind fun next => ?_
    cases next with
    | none => exact mayOpen_pure a
    | some b => exact ih b

/-- What stops at once gives what it began with. -/
theorem reads_folded_stop {step : α → Scan (Option α)} {a b : α}
    (stop : ∀ next middle, (step a).Reads cursor next middle ↔ next = none ∧ middle = cursor) :
    (folded step a).Reads cursor b after ↔ b = a ∧ after = cursor := by
  rw [folded, reads_ahead_bind, foldRounds, reads_bind]
  constructor
  · rintro ⟨_, _, first, rest⟩
    obtain ⟨rfl, rfl⟩ := (stop _ _).mp first
    exact reads_pure.mp rest
  · rintro ⟨rfl, rfl⟩
    exact ⟨none, _, (stop _ _).mpr ⟨rfl, rfl⟩, reads_pure.mpr ⟨rfl, rfl⟩⟩

theorem MayOpen.forIn {body : α → β → Scan (ForInStep β)} (elements : List α)
    (may : ∀ a b, (body a b).MayOpen) (b : β) : (forIn elements b body).MayOpen := by
  induction elements generalizing b with
  | nil => exact mayOpen_pure b
  | cons a rest ih =>
    rw [List.forIn_cons]
    refine (may a b).bind fun next => ?_
    cases next with
    | done c => exact mayOpen_pure c
    | yield c => exact ih c

end Composition

end Scan

namespace Rules

open Scan

variable {g : Rules}

theorem opens_oneAttribute (inner : Bool) : (oneAttribute g inner).Opens :=
  opens_ahead fun _ => Opens.bind (Opens.keeping (Opens.bind (opens_expectSign (by decide))))

theorem mayOpen_attributes : (attributes g).MayOpen :=
  MayOpen.folded (fun _ => mayOpen_ahead.bind fun _ =>
    mayOpen_ite (opens_oneAttribute false).bind.mayOpen (mayOpen_pure _)) []

theorem opens_segment (inExpr : Bool) : (segment g inExpr).Opens := by
  refine opens_ahead fun _ => opens_ite opens_anyWord.bind ?_
  exact opens_ahead fun _ => opens_ite opens_anyWord.bind opens_ident.bind

theorem opens_path (inExpr : Bool) : (path g inExpr).Opens :=
  (mayOpen_optionalSign (by decide)).bind_opens fun _ => (opens_segment inExpr).bind

theorem opens_qualifiedPath (inExpr : Bool) : (qualifiedPath g inExpr).Opens :=
  (opens_expectSign (by decide)).bind

theorem opens_pathExpr (literals : Bool) : (pathExpr g literals).Opens :=
  opens_ahead fun _ => opens_ite (opens_qualifiedPath true).bind (opens_path true).map.bind

theorem opens_blockOf : (blockOf g).Opens := opens_within

theorem opens_block (depth : Nat) : (nested depth).block.Opens := by
  cases depth with
  | zero => exact opens_fail _
  | succ depth => exact opens_blockOf

theorem opens_conditional : (conditional g).Opens :=
  Opens.repeated (opens_expectWord "if").bind

theorem opens_blockExpr (block : g.block.Opens) : (blockExpr g).Opens := by
  refine opens_ahead fun _ => opens_ite opens_take.discard.bind (opens_ahead fun _ => ?_)
  refine opens_ite opens_conditional (opens_ite opens_take.discard.bind ?_)
  refine opens_ite opens_take.discard.bind (opens_ite opens_take.discard.bind ?_)
  exact opens_ite opens_take.discard.bind block

theorem mayOpen_binder : (binder g).MayOpen :=
  mayOpen_ahead.bind fun _ => mayOpen_ite (mayOpen_pure _) opens_take.discard.bind.mayOpen

theorem opens_closure (literals : Bool) : (closure g literals).Opens := by
  refine mayOpen_binder.bind_opens fun _ => MayOpen.bind_opens ?_ fun _ =>
    (opens_expectSign (by decide)).bind
  exact MayOpen.forIn _ (fun name _ => (mayOpen_optionalWord name).discard.bind fun _ => mayOpen_pure _) _

theorem opens_rangeBehind (literals : Bool) : (rangeBehind g literals).Opens := by
  refine opens_optionalSign_bind (by decide) ?_
  refine opens_optionalSign_bind (by decide) ?_
  exact (opens_expectSign (by decide)).bind

theorem opens_atom (block : g.block.Opens) (literals : Bool) : (atom g literals).Opens := by
  refine opens_ahead fun _ => opens_ite opens_take.discard.bind ?_
  refine opens_ite opens_take.discard.bind (opens_ite (opens_blockExpr block).bind ?_)
  refine opens_ite (opens_closure literals).bind (opens_ite (opens_pathExpr literals) ?_)
  refine opens_ite opens_within.bind (opens_ite opens_within.bind ?_)
  refine opens_ite opens_take.discard.bind (opens_ite opens_take.discard.bind ?_)
  refine opens_ite opens_take.discard.bind (opens_ite opens_take.discard.bind ?_)
  refine opens_ite (opens_rangeBehind literals).bind (opens_ite opens_take.discard.bind ?_)
  exact opens_fail _

theorem opens_operandFrom (block : g.block.Opens) (literals : Bool) :
    (operandFrom g literals).Opens := by
  refine mayOpen_attributes.discard.bind_opens fun _ => opens_ahead fun _ => ?_
  refine opens_ite opens_take.discard.bind (opens_ite opens_take.discard.bind ?_)
  exact (opens_atom block literals).bind

theorem opens_exprFrom (block : g.block.Opens) (literals : Bool) :
    (exprFrom g literals).Opens := (opens_operandFrom block literals).bind

theorem mayOpen_steps (start : Shape) : (steps g start).MayOpen := by
  refine MayOpen.folded (fun shape => mayOpen_ahead.bind fun rest => ?_) start
  refine mayOpen_ite opens_within.bind.mayOpen (mayOpen_ite ?_ ?_)
  · exact (opens_expectSign (by decide)).bind.bind.mayOpen
  refine mayOpen_ite opens_within.bind.mayOpen ?_
  exact mayOpen_ite opens_take.discard.bind.mayOpen (mayOpen_pure _)

theorem mayOpen_climbOnce (literals : Bool) (level : Nat) (left : Shape) :
    (climbOnce g literals level left).MayOpen := by
  refine mayOpen_ahead.bind fun rest => mayOpen_ite (mayOpen_pure _) ?_
  cases found : operator? rest with
  | some operator =>
    have written : ∀ operator ∈ operators, operator.1.length ≠ 0 := by decide
    have sign := opens_expectSign (written operator (List.mem_of_find?_eq_some found))
    refine mayOpen_ite (mayOpen_pure _) (Opens.mayOpen ?_)
    exact opens_ite (opens_failAt _).bind sign.bind
  | none =>
    refine mayOpen_ite opens_take.discard.bind.mayOpen ?_
    refine mayOpen_ite (opens_rangeBehind literals).bind.mayOpen ?_
    exact mayOpen_ite opens_take.discard.bind.mayOpen (mayOpen_pure _)

theorem mayOpen_climbFrom (literals : Bool) (level : Nat) (left : Shape) :
    (climbFrom g literals level left).MayOpen :=
  MayOpen.folded (mayOpen_climbOnce literals level) left

variable {cursor after : Cursor} {text : String} {behind : List Lexeme}

/-- The signs and brackets in front of an operand do not stand at a literal. -/
theorem ahead_literal {lexeme : Lexeme} (literal : lexeme.token = .literal text) :
    Ahead.sign "#" (lexeme :: behind) = false ∧ Ahead.sign "&" (lexeme :: behind) = false ∧
      Ahead.signs ["*", "!", "-"] (lexeme :: behind) = false ∧
      (Ahead.literalText? (lexeme :: behind)).isSome := by
  obtain ⟨_, _, _⟩ := lexeme
  obtain rfl := literal
  exact ⟨rfl, rfl, rfl, rfl⟩

/-- There is nothing in front of a literal, and it is taken as a whole. -/
theorem reads_operandFrom_literal {literals : Bool} {shape : Shape} {lexeme : Lexeme}
    (left : cursor.rest = lexeme :: behind) (literal : lexeme.token = .literal text) :
    (operandFrom g literals).Reads cursor shape after ↔
      ∃ middle stepped, cursor.Passes [lexeme] middle ∧ (steps g .plain).Reads middle stepped after ∧
        shape = if after.rest.length == middle.rest.length then .plain
          else if stepped == .block then .plain else stepped := by
  obtain ⟨noMark, noRef, noSign, isLiteral⟩ :
      Ahead.sign "#" (lexeme :: behind) = false ∧ _ := ahead_literal literal
  have unmarked {attrs : List Attribute} {middle : Cursor} :
      (attributes g).Reads cursor attrs middle ↔ attrs = [] ∧ middle = cursor := by
    refine reads_folded_stop fun next middle => ?_
    rw [reads_ahead_bind, left, noMark, if_neg Bool.false_ne_true, reads_pure]
  have atom {shape : Shape} {middle : Cursor} : (atom g literals).Reads cursor shape middle ↔
      shape = .plain ∧ cursor.Passes [lexeme] middle := by
    rw [Rules.atom, reads_ahead_bind, left, isLiteral, Bool.true_or, if_pos rfl, reads_bind]
    simp [reads_take_of_rest left, and_comm]
  have behindMarks : (operandFrom g literals).Reads cursor shape after ↔ (do
      let shape ← Rules.atom g literals
      let length := (← ahead).length
      let stepped ← steps g shape
      if (← ahead).length == length then return shape
      return if stepped == .block then .plain else stepped : Scan Shape).Reads cursor shape after := by
    rw [operandFrom, reads_bind]
    constructor
    · rintro ⟨_, _, marks, reads⟩
      obtain ⟨_, marks⟩ := reads_discard.mp marks
      obtain ⟨-, rfl⟩ := unmarked.mp marks
      rw [reads_ahead_bind, left, noRef, noSign] at reads
      exact reads
    · intro reads
      refine ⟨(), cursor, reads_discard.mpr ⟨[], unmarked.mpr ⟨rfl, rfl⟩⟩, ?_⟩
      rw [reads_ahead_bind, left, noRef, noSign]
      exact reads
  rw [behindMarks, reads_bind]
  simp only [atom, reads_bind, reads_ahead, ← apply_ite, reads_pure]
  constructor
  · rintro ⟨_, middle, ⟨rfl, passes⟩, _, _, ⟨rfl, rfl⟩, stepped, _, reads, _, _, ⟨rfl, rfl⟩, rfl, rfl⟩
    exact ⟨_, stepped, passes, reads, rfl⟩
  · rintro ⟨middle, stepped, passes, reads, rfl⟩
    exact ⟨.plain, middle, ⟨rfl, passes⟩, _, _, ⟨rfl, rfl⟩, stepped, after, reads, _, _, ⟨rfl, rfl⟩,
      rfl, rfl⟩

/-- Nothing is taken by a scan that opens if nothing is recorded. -/
theorem eq_of_mayOpen {α : Type} {scan : Scan α} {a : α} (may : scan.MayOpen)
    (reads : scan.Reads cursor a after) (seen : after.seen.length ≤ cursor.seen.length) :
    after = cursor := by
  rcases may cursor a after reads with same | ⟨lexeme, behind, -, recorded⟩
  · exact same
  · have longer := recorded.length_le
    rw [List.length_cons] at longer
    omega

/-- An expression that is recorded as one token is that token, if it is a literal. -/
theorem reads_exprFrom_literal {literals : Bool} {shape : Shape} (block : g.block.Opens)
    (reads : (exprFrom g literals).Reads ⟨cursor.rest, []⟩ shape after)
    (seen : after.seen = [.token (.literal text)]) :
    ∃ lexeme, lexeme.token = .literal text ∧ cursor.rest = lexeme :: after.rest := by
  obtain ⟨lexeme, behind, left, recorded⟩ := opens_exprFrom block literals _ _ _ reads
  have literal : lexeme.token = .literal text := by
    rw [seen] at recorded
    have same := recorded.eq_of_length rfl
    exact Piece.token.inj (List.cons.inj same).1
  obtain ⟨operand, middle, first, second⟩ := reads_bind.mp reads
  obtain ⟨begun, stepped, passes, steps, -⟩ := (reads_operandFrom_literal left literal).mp first
  have one : begun.seen.length = after.seen.length := by rw [passes.seen, seen]; rfl
  have climbed := eq_of_mayOpen (mayOpen_climbFrom literals 0 operand) second
    (one ▸ steps.recorded.length_le)
  have stayed := eq_of_mayOpen (mayOpen_steps .plain) steps (Nat.le_of_eq (climbed ▸ one.symm))
  refine ⟨lexeme, literal, ?_⟩
  rw [climbed, stayed]
  exact passes.rest

/-- What ends an expression that is an entry of a list: a comma, a closing bracket, or nothing. -/
inductive EntryEnds : List Lexeme → Prop
  | nil : EntryEnds []
  | comma {joint pos rest} : EntryEnds (⟨.punct ',', joint, pos⟩ :: rest)
  | closing {d joint pos rest} : EntryEnds (⟨.closing d, joint, pos⟩ :: rest)

theorem EntryEnds.of_ends (ends : Listing.Ends ',' behind) : EntryEnds behind := by
  rcases ends with ended | ⟨⟨_, _, _⟩, rest, rfl, rfl⟩
  · cases behind with
    | nil => exact .nil
    | cons lexeme rest =>
      obtain ⟨token, _, _⟩ := lexeme
      cases token with
      | closing => exact .closing
      | word | lifetime | punct | literal | opening => cases ended
  · exact .comma

/-- No step of an operand stands there. -/
theorem EntryEnds.stepless (ends : EntryEnds behind) : Ahead.opening .round behind = false ∧
    Ahead.sign "." behind = false ∧ Ahead.opening .square behind = false ∧
      Ahead.sign "?" behind = false := by
  cases ends <;> exact ⟨rfl, rfl, rfl, rfl⟩

/-- No operator stands there. -/
theorem EntryEnds.unoperated (ends : EntryEnds behind) : operator? behind = none ∧
    assignAhead behind = false ∧ Ahead.sign ".." behind = false ∧
      Ahead.word "as" behind = false := by
  cases ends <;> exact ⟨rfl, rfl, rfl, rfl⟩

theorem reads_steps_stop {start shape : Shape} (ends : EntryEnds cursor.rest) :
    (steps g start).Reads cursor shape after ↔ shape = start ∧ after = cursor := by
  obtain ⟨noCall, noMember, noIndex, noMark⟩ := ends.stepless
  refine reads_folded_stop fun next middle => ?_
  simp [reads_ahead_bind, noCall, noMember, noIndex, noMark]

theorem reads_climbFrom_stop {literals : Bool} {level : Nat} {left shape : Shape}
    (ends : EntryEnds cursor.rest) :
    (climbFrom g literals level left).Reads cursor shape after ↔ shape = left ∧ after = cursor := by
  obtain ⟨noOperator, noAssign, noRange, noCast⟩ := ends.unoperated
  refine reads_folded_stop fun next middle => ?_
  rw [climbOnce, reads_ahead_bind, noOperator]
  simp [noAssign, noRange, noCast]

/-- The value of an entry is recorded as one literal if and only if it is a literal token. -/
theorem reads_metaValue_literal {depth : Nat} (enough : depth ≠ 0) (ends : EntryEnds after.rest) :
    (captured (metaValue (nested depth))).Reads cursor ((), [.token (.literal text)]) after ↔
      ∃ lexeme, lexeme.token = .literal text ∧ cursor.rest = lexeme :: after.rest ∧
        after.seen = cursor.seen := by
  obtain ⟨depth, rfl⟩ := Nat.exists_eq_succ_of_ne_zero enough
  rw [reads_captured]
  constructor
  · rintro ⟨inner, reads, pieces, rfl⟩
    rw [metaValue, reads_ahead_bind] at reads
    split at reads
    next =>
      obtain ⟨_, _, failed, -⟩ := reads_bind.mp reads
      exact absurd failed not_reads_fail
    next =>
      obtain ⟨shape, reads⟩ := reads_discard.mp reads
      have seen : inner.seen = [.token (.literal text)] := by
        rw [← inner.seen.reverse_reverse, ← pieces, List.reverse_singleton]
      obtain ⟨lexeme, literal, left⟩ := reads_exprFrom_literal (opens_block depth) reads seen
      exact ⟨lexeme, literal, left, rfl⟩
  · rintro ⟨lexeme, literal, left, same⟩
    refine ⟨⟨after.rest, [.token (.literal text)]⟩, ?_, rfl, by rw [← same]⟩
    have taken : Cursor.Passes ⟨cursor.rest, []⟩ [lexeme] ⟨after.rest, [.token (.literal text)]⟩ :=
      ⟨left, by rw [← literal]; rfl⟩
    have operand : (operandFrom (nested depth) true).Reads ⟨cursor.rest, []⟩ .plain
        ⟨after.rest, [.token (.literal text)]⟩ := by
      refine (reads_operandFrom_literal taken.rest literal).mpr ⟨_, .plain, taken, ?_, ?_⟩
      · refine (reads_steps_stop ?_).mpr ⟨rfl, rfl⟩
        exact ends
      · rw [beq_self_eq_true, if_pos rfl]
    obtain ⟨noMark, -⟩ : Ahead.sign "#" (lexeme :: after.rest) = false ∧ _ := ahead_literal literal
    rw [metaValue, reads_ahead_bind, left, noMark, Bool.false_and, if_neg Bool.false_ne_true]
    refine reads_discard.mpr ⟨.plain, ?_⟩
    rw [← left]
    refine reads_bind.mpr ⟨.plain, _, operand, (reads_climbFrom_stop ?_).mpr ⟨rfl, rfl⟩⟩
    exact ends

end Rules
end EntityGen
