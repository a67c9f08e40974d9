import EntityGen.Grammar.Source
import EntityGen.Proofs.Outcome

/-! What scans read. A scan that is put together of others reads what they read one after the
other, and what it leaves is an end of what it began with. Items are read as a list if and only if
they and the signs between them take turns up to the end. -/
namespace EntityGen

theorem Ahead.sign_singleton {sign : String} {c : Char} (single : sign.toList = [c])
    {rest : List Lexeme} :
    Ahead.sign sign rest ↔ ∃ lexeme behind, rest = lexeme :: behind ∧ lexeme.token = .punct c := by
  rw [Ahead.sign, single]
  constructor
  · intro here
    unfold signFrom at here
    split at here
    next same => cases same
    next d _ _ behind same =>
      obtain rfl := (List.cons.inj same).1
      exact ⟨_, behind, rfl, congrArg Token.punct (eq_of_beq here).symm⟩
    next several same => exact (several (List.cons.inj same).2.symm).elim
    next => cases here
  · rintro ⟨⟨_, _, _⟩, behind, rfl, rfl⟩
    exact beq_self_eq_true c

theorem Ahead.word?_eq_some {rest : List Lexeme} {x : Ident} :
    Ahead.word? rest = some x ↔ ∃ lexeme behind, rest = lexeme :: behind ∧ lexeme.token = .word x := by
  constructor
  · intro here
    unfold word? at here
    split at here
    next => exact ⟨_, _, rfl, congrArg Token.word (Option.some.inj here)⟩
    next => cases here
  · rintro ⟨⟨_, _, _⟩, behind, rfl, rfl⟩
    rfl

theorem Ahead.literalText?_eq_some {rest : List Lexeme} {text : String} :
    Ahead.literalText? rest = some text ↔
      ∃ lexeme behind, rest = lexeme :: behind ∧ lexeme.token = .literal text := by
  constructor
  · intro here
    unfold literalText? at here
    split at here
    next => exact ⟨_, _, rfl, congrArg Token.literal (Option.some.inj here)⟩
    next => cases here
  · rintro ⟨⟨_, _, _⟩, behind, rfl, rfl⟩
    rfl

/-- The tokens stand ahead of the one cursor and have been passed at the other. -/
structure Cursor.Passes (cursor : Cursor) (lexemes : List Lexeme) (after : Cursor) : Prop where
  rest : cursor.rest = lexemes ++ after.rest
  seen : after.seen = (lexemes.map fun lexeme => .token lexeme.token).reverse ++ cursor.seen

theorem Cursor.passes_append {first last : Cursor} {earlier later : List Lexeme} :
    first.Passes (earlier ++ later) last ↔
      ∃ middle, first.Passes earlier middle ∧ Cursor.Passes middle later last := by
  constructor
  · intro passes
    refine ⟨⟨later ++ last.rest, (earlier.map fun lexeme => .token lexeme.token).reverse ++ first.seen⟩,
      ⟨?_, rfl⟩, ⟨rfl, ?_⟩⟩
    · rw [passes.rest, List.append_assoc]
    · rw [passes.seen, List.map_append, List.reverse_append, List.append_assoc]
  · rintro ⟨middle, begun, done⟩
    refine ⟨?_, ?_⟩
    · rw [begun.rest, done.rest, List.append_assoc]
    · rw [done.seen, begun.seen, List.map_append, List.reverse_append, List.append_assoc]

namespace Scan

variable {α β : Type} {cursor after : Cursor}

def Reads (scan : Scan α) (cursor : Cursor) (a : α) (after : Cursor) : Prop :=
  run scan cursor = .ok (a, after)

/-- What a scan leaves is an end of what it began with. -/
theorem Reads.isSuffix {scan : Scan α} {a : α} (reads : scan.Reads cursor a after) :
    after.rest <:+ cursor.rest := by
  unfold Reads run at reads
  cases here : scan cursor with
  | error =>
    rw [here] at reads
    cases reads
  | ok found =>
    rw [here] at reads
    obtain ⟨-, rfl⟩ := Prod.mk.inj (Except.ok.inj reads)
    exact found.isSuffix

@[simp] theorem reads_pure {a b : α} :
    (pure a : Scan α).Reads cursor b after ↔ b = a ∧ after = cursor := by
  constructor
  · intro reads
    cases reads
    exact ⟨rfl, rfl⟩
  · rintro ⟨rfl, rfl⟩
    rfl

@[simp] theorem reads_ahead {rest : List Lexeme} :
    ahead.Reads cursor rest after ↔ rest = cursor.rest ∧ after = cursor := by
  constructor
  · intro reads
    cases reads
    exact ⟨rfl, rfl⟩
  · rintro ⟨rfl, rfl⟩
    rfl

/-- A scan of two parts reads what both of its parts do. -/
theorem reads_bind {scan : Scan α} {next : α → Scan β} {b : β} :
    (scan >>= next).Reads cursor b after ↔
      ∃ a middle, scan.Reads cursor a middle ∧ (next a).Reads middle b after := by
  have both : run (scan >>= next) cursor =
      (run scan cursor).bind fun result => run (next result.1) result.2 := by
    unfold run
    show (Except.bind (scan cursor) _).map _ = _
    cases scan cursor with
    | error => rfl
    | ok found =>
      show (Except.bind (next found.result found.after) _).map _ =
        (next found.result found.after).map _
      cases next found.result found.after <;> rfl
  unfold Reads
  rw [both]
  cases run scan cursor with
  | error =>
    constructor
    · intro done
      cases done
    · rintro ⟨_, _, same, -⟩
      cases same
  | ok result =>
    refine ⟨fun done => ⟨result.1, result.2, rfl, done⟩, ?_⟩
    rintro ⟨a, middle, same, done⟩
    obtain rfl := Except.ok.inj same
    exact done

theorem reads_ahead_bind {next : List Lexeme → Scan β} {b : β} :
    (ahead >>= next).Reads cursor b after ↔ (next cursor.rest).Reads cursor b after := by
  simp [reads_bind]

theorem reads_map {f : α → β} {scan : Scan α} {b : β} :
    (f <$> scan).Reads cursor b after ↔ ∃ a, scan.Reads cursor a after ∧ b = f a := by
  constructor
  · intro reads
    obtain ⟨a, middle, read, result⟩ := reads_bind.mp reads
    obtain ⟨rfl, rfl⟩ := reads_pure.mp result
    exact ⟨a, read, rfl⟩
  · rintro ⟨a, read, rfl⟩
    exact reads_bind.mpr ⟨a, after, read, reads_pure.mpr ⟨rfl, rfl⟩⟩

@[simp] theorem not_reads_failAt {message : String} {a : α} :
    ¬ (failAt message : Scan α).Reads cursor a after := nofun

@[simp] theorem not_reads_fail {message : String} {a : α} :
    ¬ (fail message : Scan α).Reads cursor a after := nofun

@[simp] theorem not_reads_throw {fault : Fault} {a : α} :
    ¬ (throw fault : Scan α).Reads cursor a after := nofun

theorem reads_take {token : Token} : take.Reads cursor token after ↔
    ∃ lexeme, lexeme.token = token ∧ cursor.Passes [lexeme] after := by
  obtain ⟨left, seen⟩ := cursor
  constructor
  · intro reads
    match left with
    | [] => cases reads
    | lexeme :: rest =>
      cases reads
      exact ⟨lexeme, rfl, rfl, rfl⟩
  · rintro ⟨lexeme, rfl, passes⟩
    obtain ⟨rest, _⟩ := after
    obtain ⟨rfl, rfl⟩ : left = lexeme :: rest ∧ _ = Piece.token lexeme.token :: seen :=
      ⟨passes.rest, passes.seen⟩
    rfl

theorem reads_discard {scan : Scan α} : (discard scan).Reads cursor () after ↔
    ∃ a, scan.Reads cursor a after := by
  show (Function.const α () <$> scan).Reads cursor () after ↔ _
  simp [reads_map]

/-- What each round leaves as large as it was is as large behind any number of them. -/
theorem le_of_reads_foldRounds {step : α → Scan (Option α)} (size : α → Nat)
    (grows : ∀ (cursor : Cursor) (a next : α) (after : Cursor),
      (step a).Reads cursor (some next) after → size a ≤ size next)
    {fuel : Nat} {a all : α} (reads : (foldRounds fuel step a).Reads cursor all after) :
    size a ≤ size all := by
  induction fuel generalizing cursor a with
  | zero =>
    obtain ⟨rfl, -⟩ := reads_pure.mp reads
    exact Nat.le_refl _
  | succ fuel ih =>
    obtain ⟨next, middle, here, rest⟩ := reads_bind.mp reads
    cases next with
    | none =>
      obtain ⟨rfl, -⟩ := reads_pure.mp rest
      exact Nat.le_refl _
    | some next => exact Nat.le_trans (grows cursor a next middle here) (ih rest)

/-- What stands ahead is what is taken. -/
theorem reads_take_of_rest {lexeme : Lexeme} {behind : List Lexeme}
    (left : cursor.rest = lexeme :: behind) :
    (discard take).Reads cursor () after ↔ cursor.Passes [lexeme] after := by
  rw [reads_discard]
  constructor
  · rintro ⟨_, read⟩
    obtain ⟨lexeme', -, passes⟩ := reads_take.mp read
    obtain rfl : lexeme = lexeme' := (List.cons.inj (left.symm.trans passes.rest)).1
    exact passes
  · exact fun passes => ⟨_, reads_take.mpr ⟨lexeme, rfl, passes⟩⟩

theorem reads_finish {u : Unit} : finish.Reads cursor u after ↔
    Ahead.finished cursor.rest ∧ after = cursor := by
  rw [finish, reads_ahead_bind]
  cases ended : Ahead.finished cursor.rest <;> simp

/-- A sign of one character is taken if and only if it stands ahead. -/
theorem reads_expectSign {sign : String} {c : Char} (single : sign.toList = [c]) :
    (expectSign sign).Reads cursor () after ↔
      ∃ lexeme, lexeme.token = .punct c ∧ cursor.Passes [lexeme] after := by
  have one : sign.length = 1 := by rw [← String.length_toList, single]; rfl
  have taken : (takeAll 1).Reads cursor () after ↔ (discard take).Reads cursor () after := by
    rw [takeAll, reads_bind]
    exact ⟨fun ⟨_, _, taken, last⟩ => (reads_pure.mp last).2 ▸ taken,
      fun taken => ⟨(), after, taken, reads_pure.mpr ⟨rfl, rfl⟩⟩⟩
  rw [expectSign, reads_ahead_bind]
  constructor
  · intro reads
    split at reads
    next ahead =>
      obtain ⟨lexeme, rest, left, token⟩ := (Ahead.sign_singleton single).mp ahead
      rw [one, taken, reads_take_of_rest left] at reads
      exact ⟨lexeme, token, reads⟩
    next => exact absurd reads not_reads_failAt
  · rintro ⟨lexeme, token, passes⟩
    rw [if_pos ((Ahead.sign_singleton single).mpr ⟨lexeme, _, passes.rest, token⟩), one, taken,
      reads_take_of_rest passes.rest]
    exact passes

theorem reads_optionalSign_false {sign : String} : (optionalSign sign).Reads cursor false after ↔
    Ahead.sign sign cursor.rest = false ∧ after = cursor := by
  rw [optionalSign, reads_ahead_bind]
  cases here : Ahead.sign sign cursor.rest <;> simp [reads_bind]

/-- A word is read where one stands ahead. -/
theorem reads_anyWord {x : Ident} : anyWord.Reads cursor x after ↔
    ∃ lexeme, lexeme.token = .word x ∧ cursor.Passes [lexeme] after := by
  rw [anyWord, reads_ahead_bind]
  constructor
  · intro reads
    split at reads
    next y word =>
      obtain ⟨lexeme, behind, left, token⟩ := Ahead.word?_eq_some.mp word
      obtain ⟨_, _, taken, result⟩ := reads_bind.mp reads
      obtain ⟨rfl, rfl⟩ := reads_pure.mp result
      exact ⟨lexeme, token, (reads_take_of_rest left).mp taken⟩
    next => exact absurd reads not_reads_fail
  · rintro ⟨lexeme, token, passes⟩
    rw [Ahead.word?_eq_some.mpr ⟨lexeme, _, passes.rest, token⟩]
    exact reads_bind.mpr ⟨(), after, (reads_take_of_rest passes.rest).mpr passes,
      reads_pure.mpr ⟨rfl, rfl⟩⟩

/-- An identifier is a word that is no keyword. -/
theorem reads_ident {x : Ident} :
    ident.Reads cursor x after ↔ x.isKeyword = false ∧ anyWord.Reads cursor x after := by
  rw [ident, anyWord, reads_ahead_bind, reads_ahead_bind]
  cases word : Ahead.word? cursor.rest with
  | none => simp
  | some y =>
    have named {z : Ident} (reads : (do discard take; return z).Reads cursor x after) : x = z := by
      obtain ⟨_, _, -, result⟩ := reads_bind.mp reads
      exact (reads_pure.mp result).1
    dsimp only
    split
    next keyword =>
      refine ⟨fun reads => absurd reads not_reads_fail, ?_⟩
      rintro ⟨free, reads⟩
      rw [named reads, keyword] at free
      cases free
    next free =>
      refine ⟨fun reads => ⟨?_, reads⟩, And.right⟩
      rw [named reads]
      exact Bool.eq_false_iff.mpr free

/-- Items and separators that take turns up to the end. A separator may stand behind the last
item. -/
inductive Listing (separator : Char) (Item : Cursor → α → Cursor → Prop) :
    Cursor → List α → Cursor → Prop
  | nil {cursor : Cursor} (ended : Ahead.finished cursor.rest) :
    Listing separator Item cursor [] cursor
  | last {cursor after : Cursor} {a : α} (begun : Ahead.finished cursor.rest = false)
    (item : Item cursor a after) (ended : Ahead.finished after.rest) :
    Listing separator Item cursor [a] after
  | cons {cursor middle behind after : Cursor} {a : α} {lexeme : Lexeme} {others : List α}
    (begun : Ahead.finished cursor.rest = false) (item : Item cursor a middle)
    (separated : lexeme.token = .punct separator) (passes : middle.Passes [lexeme] behind)
    (later : Listing separator Item behind others after) :
    Listing separator Item cursor (a :: others) after

namespace Listing

variable {separator : Char} {Item : Cursor → α → Cursor → Prop}
  {Other : Cursor → β → Cursor → Prop} {as : List α} {bs : List β}

theorem finished (listing : Listing separator Item cursor as after) :
    Ahead.finished after.rest := by
  induction listing with
  | nil ended => exact ended
  | last _ _ ended => exact ended
  | cons _ _ _ _ _ ih => exact ih

def Ends (separator : Char) (rest : List Lexeme) : Prop :=
  Ahead.finished rest ∨
    ∃ lexeme behind, rest = lexeme :: behind ∧ lexeme.token = .punct separator

/-- Where items of one kind are related to items of another, so are lists of them. -/
theorem forall₂_iff {R : α → β → Prop}
    (same : ∀ cursor b after, Ends separator after.rest →
      (Other cursor b after ↔ ∃ a, Item cursor a after ∧ R a b)) :
    Listing separator Other cursor bs after ↔
      ∃ as, Listing separator Item cursor as after ∧ List.Forall₂ R as bs := by
  have separates {middle behind : Cursor} {lexeme : Lexeme}
      (separated : lexeme.token = .punct separator) (passes : middle.Passes [lexeme] behind) :
      Ends separator middle.rest := .inr ⟨lexeme, behind.rest, passes.rest, separated⟩
  constructor
  · intro listing
    induction listing with
    | nil ended => exact ⟨[], .nil ended, .nil⟩
    | last begun item ended =>
      obtain ⟨a, inner, related⟩ := (same _ _ _ (.inl ended)).mp item
      exact ⟨[a], .last begun inner ended, .cons related .nil⟩
    | cons begun item separated passes _ ih =>
      obtain ⟨a, inner, related⟩ := (same _ _ _ (separates separated passes)).mp item
      obtain ⟨as, later, others⟩ := ih
      exact ⟨a :: as, .cons begun inner separated passes later, .cons related others⟩
  · rintro ⟨as, listing, related⟩
    induction listing generalizing bs with
    | nil ended =>
      obtain rfl := List.forall₂_nil_left_iff.mp related
      exact .nil ended
    | last begun item ended =>
      obtain ⟨b, _, here, others, rfl⟩ := List.forall₂_cons_left_iff.mp related
      obtain rfl := List.forall₂_nil_left_iff.mp others
      exact .last begun ((same _ _ _ (.inl ended)).mpr ⟨_, item, here⟩) ended
    | cons begun item separated passes _ ih =>
      obtain ⟨b, _, here, others, rfl⟩ := List.forall₂_cons_left_iff.mp related
      have inner := (same _ _ _ (separates separated passes)).mpr ⟨_, item, here⟩
      exact .cons begun inner separated passes (ih others)

/-- Where items of one kind are those of another seen through a function, so are lists of them. -/
theorem map_iff {f : α → β}
    (same : ∀ cursor b after, Other cursor b after ↔ ∃ a, Item cursor a after ∧ f a = b) :
    Listing separator Other cursor bs after ↔
      ∃ as, Listing separator Item cursor as after ∧ as.map f = bs := by
  refine (forall₂_iff fun cursor b after _ => same cursor b after).trans ?_
  refine exists_congr fun as => and_congr_right fun _ => ?_
  rw [← List.forall₂_map_left_iff (R := Eq), List.forall₂_eq_eq_eq]

end Listing

section

variable {sign : String} {separator : Char} {item : Scan α} {found as : List α} {more : Bool}
  {fuel : Nat}

/-- A list has ended where its end stands ahead, or where an item had no separator behind it. -/
theorem reads_nextListed_stop {next : Option (List α × Bool)}
    (stop : !more || Ahead.finished cursor.rest) :
    (nextListed sign item (found, more)).Reads cursor next after ↔ next = none ∧ after = cursor := by
  rw [nextListed, reads_ahead_bind, if_pos stop, reads_pure]

variable (single : sign.toList = [separator])

include single

/-- Where a list goes on, an item is read, and a separator behind it unless it is the last. -/
theorem reads_nextListed {next : Option (List α × Bool)}
    (begun : Ahead.finished cursor.rest = false) :
    (nextListed sign item (found, true)).Reads cursor next after ↔
      ∃ a middle, item.Reads cursor a middle ∧
        ((Ahead.finished middle.rest ∧ next = some (found ++ [a], false) ∧ after = middle) ∨
          ∃ lexeme, lexeme.token = .punct separator ∧ middle.Passes [lexeme] after ∧
            next = some (found ++ [a], true)) := by
  rw [nextListed, reads_ahead_bind, if_neg (by simpa using begun), reads_bind]
  refine exists_congr fun a => exists_congr fun middle => and_congr_right fun _ => ?_
  rw [reads_ahead_bind]
  constructor
  · intro reads
    split at reads
    next ended => exact .inl ⟨ended, reads_pure.mp reads⟩
    next =>
      obtain ⟨_, _, separated, result⟩ := reads_bind.mp reads
      obtain ⟨rfl, rfl⟩ := reads_pure.mp result
      obtain ⟨lexeme, token, passes⟩ := (reads_expectSign single).mp separated
      exact .inr ⟨lexeme, token, passes, rfl⟩
  · rintro (⟨ended, rfl, rfl⟩ | ⟨lexeme, token, passes, rfl⟩)
    · rw [if_pos ended, reads_pure]
      exact ⟨rfl, rfl⟩
    · have going : Ahead.finished middle.rest = false := by
        rw [passes.rest, List.singleton_append, Ahead.finished, token]
      rw [if_neg (by simp [going]), reads_bind]
      exact ⟨(), after, (reads_expectSign single).mpr ⟨lexeme, token, passes⟩,
        reads_pure.mpr ⟨rfl, rfl⟩⟩

omit single in
/-- An ended list is left as it is, by whatever number of rounds. -/
theorem reads_foldRounds_stop {found : List α} {more : Bool} {all : List α × Bool}
    (stop : !more || Ahead.finished cursor.rest) :
    (foldRounds fuel (nextListed sign item) (found, more)).Reads cursor all after ↔
      all = (found, more) ∧ after = cursor := by
  cases fuel with
  | zero => exact reads_pure
  | succ fuel => simp [foldRounds, reads_bind, reads_nextListed_stop stop]

/-- With a round for each token, what is listed is read. -/
theorem Listing.reads_foldRounds (listing : Listing separator item.Reads cursor as after)
    (found : List α) (enough : cursor.rest.length < fuel) :
    ∃ more, (foldRounds fuel (nextListed sign item) (found, true)).Reads cursor
      (found ++ as, more) after := by
  induction listing generalizing found fuel with
  | nil ended =>
    exact ⟨true, (reads_foldRounds_stop (by simpa using ended)).mpr
      ⟨by rw [List.append_nil], rfl⟩⟩
  | last begun item ended =>
    obtain ⟨fuel, rfl⟩ := Nat.exists_eq_succ_of_ne_zero (Nat.ne_zero_of_lt enough)
    exact ⟨false, reads_bind.mpr ⟨_, _, (reads_nextListed single begun).mpr
      ⟨_, _, item, .inl ⟨ended, rfl, rfl⟩⟩, (reads_foldRounds_stop rfl).mpr ⟨rfl, rfl⟩⟩⟩
  | @cons cursor middle behind after a lexeme others begun item separated passes later ih =>
    obtain ⟨fuel, rfl⟩ := Nat.exists_eq_succ_of_ne_zero (Nat.ne_zero_of_lt enough)
    have shorter := item.isSuffix.length_le
    rw [passes.rest, List.length_append, List.length_singleton] at shorter
    obtain ⟨more, done⟩ := @ih fuel (found ++ [a]) (by omega)
    rw [List.append_assoc] at done
    exact ⟨more, reads_bind.mpr ⟨_, _, (reads_nextListed single begun).mpr
      ⟨a, middle, item, .inr ⟨lexeme, separated, passes, rfl⟩⟩, done⟩⟩

/-- With a round for each token, only what is listed is read. -/
theorem Listing.of_reads_foldRounds {found all : List α} {more : Bool}
    (enough : cursor.rest.length < fuel)
    (reads : (foldRounds fuel (nextListed sign item) (found, true)).Reads cursor (all, more) after) :
    ∃ as, all = found ++ as ∧ Listing separator item.Reads cursor as after := by
  induction fuel generalizing cursor found with
  | zero => exact absurd enough (Nat.not_lt_zero _)
  | succ fuel ih =>
    by_cases ended : Ahead.finished cursor.rest
    · obtain ⟨same, rfl⟩ := (reads_foldRounds_stop (by simpa using ended)).mp reads
      exact ⟨[], by rw [(Prod.mk.inj same).1, List.append_nil], .nil ended⟩
    · have begun := Bool.eq_false_iff.mpr ended
      obtain ⟨next, behind, step, rest⟩ := reads_bind.mp reads
      obtain ⟨a, middle, item, ⟨last, rfl, rfl⟩ | ⟨lexeme, separated, passes, rfl⟩⟩ :=
        (reads_nextListed single begun).mp step
      · obtain ⟨same, rfl⟩ := (reads_foldRounds_stop rfl).mp rest
        exact ⟨[a], (Prod.mk.inj same).1, .last begun item last⟩
      · have shorter := item.isSuffix.length_le
        rw [passes.rest, List.length_append, List.length_singleton] at shorter
        obtain ⟨as, rfl, later⟩ := ih (by omega) rest
        exact ⟨a :: as, List.append_assoc _ _ _, .cons begun item separated passes later⟩

/-- The items that are read are those that are listed. -/
theorem reads_listed : (listed sign item).Reads cursor as after ↔
    Listing separator item.Reads cursor as after := by
  rw [listed, reads_map]
  simp only [folded, reads_ahead_bind]
  constructor
  · rintro ⟨⟨all, more⟩, reads, rfl⟩
    obtain ⟨as, rfl, listing⟩ := Listing.of_reads_foldRounds single (Nat.lt_succ_self _) reads
    exact listing
  · intro listing
    obtain ⟨more, reads⟩ := listing.reads_foldRounds single [] (Nat.lt_succ_self _)
    exact ⟨(as, more), reads, rfl⟩

end

end Scan

/-- Tokens are read by a rule if and only if it takes all of them up to the end. -/
theorem readAll_eq_ok {α : Type} {rule : Rules → Scan α} {lexemes : List Lexeme} {a : α} :
    readAll rule lexemes = .ok a ↔
      ∃ after, (rule (Rules.nested (4 * lexemes.length + 16))).Reads ⟨lexemes, []⟩ a after ∧
        Ahead.finished after.rest := by
  have whole (after : Cursor) : (do
      let result ← rule (Rules.nested (4 * lexemes.length + 16))
      Scan.finish
      return result : Scan α).Reads ⟨lexemes, []⟩ a after ↔
        (rule (Rules.nested (4 * lexemes.length + 16))).Reads ⟨lexemes, []⟩ a after ∧
          Ahead.finished after.rest := by
    simp only [Scan.reads_bind, Scan.reads_finish, Scan.reads_pure]
    constructor
    · rintro ⟨_, middle, reads, _, _, ⟨ended, rfl⟩, rfl, rfl⟩
      exact ⟨reads, ended⟩
    · rintro ⟨reads, ended⟩
      exact ⟨a, after, reads, (), after, ⟨ended, rfl⟩, rfl, rfl⟩
  simp only [← whole]
  unfold readAll
  constructor
  · intro read
    obtain ⟨⟨_, after⟩, done, same⟩ := ok_of_bind read
    obtain rfl := Except.ok.inj same
    exact ⟨after, done⟩
  · rintro ⟨after, done⟩
    unfold Scan.Reads at done
    dsimp only
    rw [done]
    rfl

end EntityGen
