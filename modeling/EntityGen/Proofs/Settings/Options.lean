import EntityGen.Proofs.Token.Opening
import EntityGen.Settings
import Mathlib.Data.List.Induction

/-! The options of a round. They are read from a list of entries, each of them a key, an equals sign
and an expression. Where each key is one of three words and each expression a string that fits it,
the last string for a key counts; otherwise the first entry that offends is reported, but only if
the list can be read to its end. -/
namespace EntityGen

theorem Code.mem_compact {code : Code} {token : Token} {c : Char} (member : token ∈ code)
    (inside : c ∈ token.text.toList) : c ∈ code.compact.toList := by
  rw [compact, String.toList_join, List.mem_flatMap]
  exact ⟨token.text, List.mem_map_of_mem member, inside⟩

/-- A path is written as a plain name is only if it is that name. -/
theorem NamePath.compact_code_eq_iff {path : NamePath} {name : String} (written : name ≠ "")
    (plain : ':' ∉ name.toList ∧ '#' ∉ name.toList) :
    path.code.compact = name ↔ path = ⟨false, [⟨name, false⟩]⟩ := by
  have single (x : Ident) : Code.compact (code ⟨false, [x]⟩) = x.text :=
    String.toList_inj.mp (by simp [code, Code.compact, Token.text])
  refine ⟨fun same => ?_, ?_⟩
  · have colon : Token.punct ':' ∉ path.code := fun member =>
      plain.1 (same ▸ Code.mem_compact member (.head _))
    obtain ⟨leading, names⟩ := path
    cases leading with
    | true => simp [code, Code.sign] at colon
    | false =>
      rcases names with _ | ⟨⟨text, raw⟩, _ | ⟨y, rest⟩⟩
      · exact absurd same.symm written
      · rw [single] at same
        cases raw with
        | true =>
          refine absurd (same ▸ ?_) plain.2
          simp [Ident.text]
        | false =>
          obtain rfl : text = name := same
          rfl
      · simp [code, Code.sign] at colon
  · rintro rfl
    exact single ⟨name, false⟩

namespace Rules

open Scan

variable {cursor after : Cursor} {names : List Ident} {x : Ident}

theorem reads_nextPathName_stop {next : Option (List Ident × Bool)} :
    (nextPathName (names, false)).Reads cursor next after ↔ next = none ∧ after = cursor := by
  rw [nextPathName, Bool.not_false, if_pos rfl, reads_pure]

theorem reads_nextPathName {next : Option (List Ident × Bool)} :
    (nextPathName (names, true)).Reads cursor next after ↔
      nameAhead cursor.rest ∧ ∃ x middle more, anyWord.Reads cursor x middle ∧
        (optionalSign "::").Reads middle more after ∧ next = some (names ++ [x], more) := by
  rw [nextPathName, Bool.not_true, if_neg Bool.false_ne_true, reads_ahead_bind]
  cases ahead : nameAhead cursor.rest with
  | false => simp [reads_bind]
  | true => simp [reads_bind]

/-- No round takes a name away. -/
theorem length_le_of_foldRounds {fuel : Nat} {more : Bool} {all : List Ident × Bool}
    (reads : (foldRounds fuel nextPathName (names, more)).Reads cursor all after) :
    names.length ≤ all.1.length := by
  refine le_of_reads_foldRounds (fun read => read.1.length) (fun cursor read next after step => ?_) reads
  obtain ⟨names, _ | _⟩ := read
  · obtain ⟨same, -⟩ := reads_nextPathName_stop.mp step
    cases same
  · obtain ⟨-, x, _, more, -, -, same⟩ := reads_nextPathName.mp step
    obtain rfl := Option.some.inj same
    rw [List.length_append]
    exact Nat.le_add_right _ _

/-- A path of one name is one word, with no double colon behind it. -/
theorem reads_names_singleton (begun : cursor.rest ≠ []) :
    (∃ more, (folded nextPathName ([], true)).Reads cursor ([x], more) after) ↔
      nameAhead cursor.rest ∧ anyWord.Reads cursor x after ∧ Ahead.sign "::" after.rest = false := by
  obtain ⟨lexeme, behind, left⟩ := List.exists_cons_of_ne_nil begun
  simp only [folded, reads_ahead_bind, left, List.length_cons]
  constructor
  · rintro ⟨more, reads⟩
    obtain ⟨_, _, step, reads⟩ := reads_bind.mp reads
    obtain ⟨ahead, y, middle, again, word, sign, rfl⟩ := reads_nextPathName.mp step
    obtain ⟨_, _, step, reads⟩ := reads_bind.mp reads
    cases again with
    | false =>
      obtain ⟨absent, rfl⟩ := reads_optionalSign_false.mp sign
      obtain ⟨rfl, rfl⟩ := reads_nextPathName_stop.mp step
      obtain ⟨same, rfl⟩ := reads_pure.mp reads
      obtain rfl := List.singleton_inj.mp (Prod.mk.inj same).1
      exact ⟨left ▸ ahead, word, absent⟩
    | true =>
      obtain ⟨-, z, _, _, -, -, rfl⟩ := reads_nextPathName.mp step
      exact absurd (length_le_of_foldRounds reads) (by simp)
  · rintro ⟨ahead, word, absent⟩
    refine ⟨false, reads_bind.mpr ⟨some ([x], false), after, ?_, reads_bind.mpr ⟨none, after, ?_, ?_⟩⟩⟩
    · exact reads_nextPathName.mpr ⟨left ▸ ahead, x, after, false, word,
        reads_optionalSign_false.mpr ⟨absent, rfl⟩, rfl⟩
    · exact reads_nextPathName_stop.mpr ⟨rfl, rfl⟩
    · exact reads_pure.mpr ⟨rfl, rfl⟩

theorem nameAhead_of_reads_ident {u : Cursor} (reads : Scan.ident.Reads cursor x u) :
    nameAhead cursor.rest := by
  obtain ⟨free, word⟩ := reads_ident.mp reads
  obtain ⟨lexeme, token, passes⟩ := reads_anyWord.mp word
  have ahead : Ahead.word? cursor.rest = some x :=
    Ahead.word?_eq_some.mpr ⟨lexeme, _, passes.rest, token⟩
  simp [nameAhead, Ahead.ident, ahead, free]

theorem reads_namePath_singleton :
    namePath.Reads cursor ⟨false, [x]⟩ after ↔ Ahead.sign "::" cursor.rest = false ∧
      nameAhead cursor.rest ∧ anyWord.Reads cursor x after ∧ Ahead.sign "::" after.rest = false := by
  have begun (ahead : nameAhead cursor.rest) : cursor.rest ≠ [] := by
    intro nothing
    rw [nothing] at ahead
    cases ahead
  rw [namePath, reads_bind]
  constructor
  · rintro ⟨leading, outset, sign, reads⟩
    rw [reads_ahead_bind] at reads
    split at reads
    next noName =>
      obtain ⟨_, _, word, -⟩ := reads_bind.mp reads
      obtain ⟨y, word⟩ := reads_discard.mp word
      simp [nameAhead_of_reads_ident word] at noName
    next ahead =>
      obtain ⟨⟨names, more⟩, _, reads, result⟩ := reads_bind.mp reads
      obtain ⟨same, rfl⟩ := reads_pure.mp result
      obtain ⟨rfl, rfl⟩ := NamePath.mk.inj same
      obtain ⟨absent, rfl⟩ := reads_optionalSign_false.mp sign
      have ahead : nameAhead outset.rest := by simpa using ahead
      exact ⟨absent, (reads_names_singleton (begun ahead)).mp ⟨more, reads⟩⟩
  · rintro ⟨absent, ahead, word, ends⟩
    obtain ⟨more, reads⟩ := (reads_names_singleton (begun ahead)).mpr ⟨ahead, word, ends⟩
    refine ⟨false, cursor, reads_optionalSign_false.mpr ⟨absent, rfl⟩, ?_⟩
    rw [reads_ahead_bind, if_neg (by simp [ahead])]
    exact reads_bind.mpr ⟨([x], more), after, reads, reads_pure.mpr ⟨rfl, rfl⟩⟩

/-- A name that is no keyword is read as a path where no double colon stands behind it. -/
theorem reads_metaPath_name (free : x.isKeyword = false) :
    metaPath.Reads cursor ⟨false, [x]⟩ after ↔
      anyWord.Reads cursor x after ∧ Ahead.sign "::" after.rest = false := by
  rw [metaPath, reads_ahead_bind]
  constructor
  · intro reads
    split at reads
    next marker =>
      obtain ⟨y, _, word, result⟩ := reads_bind.mp reads
      obtain ⟨same, rfl⟩ := reads_pure.mp result
      obtain rfl := List.singleton_inj.mp (NamePath.mk.inj same).2
      obtain ⟨lexeme, token, passes⟩ := reads_anyWord.mp word
      have ahead : Ahead.word? cursor.rest = some x :=
        Ahead.word?_eq_some.mpr ⟨lexeme, _, passes.rest, token⟩
      rw [Ahead.word, ahead] at marker
      obtain rfl := Option.some.inj (eq_of_beq marker)
      cases free
    next =>
      obtain ⟨-, -, word, ends⟩ := reads_namePath_singleton.mp reads
      exact ⟨word, ends⟩
  · rintro ⟨word, ends⟩
    have ahead := nameAhead_of_reads_ident (reads_ident.mpr ⟨free, word⟩)
    obtain ⟨⟨_, _, _⟩, rfl, passes⟩ := reads_anyWord.mp word
    have absent : Ahead.sign "::" cursor.rest = false := by
      rw [passes.rest]
      rfl
    have noMarker : Ahead.word "unsafe" cursor.rest = false := by
      rw [passes.rest, List.singleton_append, Ahead.word]
      refine beq_false_of_ne fun same => ?_
      obtain rfl : x = ⟨"unsafe", false⟩ := Option.some.inj same
      cases free
    rw [noMarker, if_neg Bool.false_ne_true]
    exact reads_namePath_singleton.mpr ⟨absent, ahead, word, ends⟩

end Rules

inductive OptionKey where
  | store
  | runtime
  | format
  deriving DecidableEq

def OptionKey.text : OptionKey → String
  | store => "store"
  | runtime => "runtime"
  | format => "format"

inductive Choice where
  | store (name : Ident)
  | runtime (path : Path)
  | format (on : Bool)

namespace Choice

def key : Choice → OptionKey
  | store _ => .store
  | runtime _ => .runtime
  | format _ => .format

def Written (text : String) : Choice → Prop
  | store name => Ident.ofText? text = some name
  | runtime path => Path.ofText? text = some path
  | format on => text = if on then "true" else "false"

/-- The entry stands ahead: its key, an equals sign and a string that is the value. What is passed
of the value is not kept in the record. -/
def Stands (cursor : Cursor) (choice : Choice) (after : Cursor) : Prop :=
  ∃ word equals literal middle quoted text, cursor.Passes [word, equals] middle ∧
    middle.rest = literal :: after.rest ∧ after.seen = middle.seen ∧
    word.token = .plain choice.key.text ∧ equals.token = .punct '=' ∧
    literal.token = .literal quoted ∧ Quoted.value? quoted = some text ∧ choice.Written text

def apply (settings : Settings) : Choice → Settings
  | store name => { settings with store := name }
  | runtime path => { settings with runtime := path }
  | format on => { settings with format := on }

end Choice

namespace OptionEntry

open Scan

variable {entry : OptionEntry} {choice : Choice} {settings new : Settings} {error : SettingsError}
  {cursor after : Cursor}

def Gives (entry : OptionEntry) (choice : Choice) : Prop :=
  entry.key = choice.key.text ∧ ∃ text, entry.value = some text ∧ choice.Written text

inductive Offends (entry : OptionEntry) : SettingsError → Prop
  | value (missing : entry.value = none) :
    Offends entry (.invalidValue entry.key "expected a string literal" entry.valuePos)
  | store {text detail} (key : entry.key = "store") (value : entry.value = some text)
    (unread : Settings.readValue (fun _ => Scan.ident) text = .error detail) :
    Offends entry (.invalidValue entry.key ("`" ++ text ++ "`: " ++ detail) entry.valuePos)
  | runtime {text detail} (key : entry.key = "runtime") (value : entry.value = some text)
    (unread : Settings.readValue (fun g => Rules.path g false) text = .error detail) :
    Offends entry (.invalidValue entry.key ("`" ++ text ++ "`: " ++ detail) entry.valuePos)
  | format {text} (key : entry.key = "format") (value : entry.value = some text)
    (untrue : text ≠ "true") (unfalse : text ≠ "false") :
    Offends entry (.invalidValue entry.key "provided string was not `true` or `false`" entry.valuePos)
  | key {text} (value : entry.value = some text) (other : ∀ key : OptionKey, entry.key ≠ key.text) :
    Offends entry (.unknownOption entry.key entry.pathPos)

theorem readValue_eq_ok {α : Type} {rule : Rules → Scan α} {text : String} {a : α} :
    Settings.readValue rule text = .ok a ↔ readText? rule text = some a := by
  unfold Settings.readValue readText?
  cases Lexer.tokens? text with
  | none => simp
  | some lexemes =>
    show (readAll rule lexemes).mapError Fault.message = .ok a ↔
      (readAll rule lexemes).toOption = some a
    cases readAll rule lexemes <;> simp [Except.mapError, Except.toOption]

theorem set_of_gives (gives : entry.Gives choice) (settings : Settings) :
    settings.set entry = .ok (choice.apply settings) := by
  obtain ⟨key, text, value, written⟩ := gives
  cases choice with
  | store name =>
    have read := readValue_eq_ok.mpr written
    simp [Settings.set, value, key, Choice.key, OptionKey.text, read, Choice.apply, Except.mapError]
  | runtime path =>
    have read := readValue_eq_ok.mpr written
    simp [Settings.set, value, key, Choice.key, OptionKey.text, read, Choice.apply, Except.mapError]
  | format on =>
    obtain rfl : text = _ := written
    cases on <;> simp [Settings.set, value, key, Choice.key, OptionKey.text, Choice.apply,
      Settings.truth?, Except.mapError]

theorem set_of_offends (offends : entry.Offends error) (settings : Settings) :
    settings.set entry = .error error := by
  cases offends with
  | value missing =>
    simp [Settings.set, missing]
    rfl
  | store key value unread => simp [Settings.set, value, key, unread, Except.mapError]
  | runtime key value unread => simp [Settings.set, value, key, unread, Except.mapError]
  | format key value untrue unfalse =>
    simp [Settings.set, value, key, Settings.truth?, untrue, unfalse, Except.mapError]
  | key value other =>
    have store := other .store
    have runtime := other .runtime
    have format := other .format
    simp [OptionKey.text] at store runtime format
    simp [Settings.set, value, store, runtime, format]
    rfl

/-- An entry gives a value to an option, or it offends. -/
theorem gives_or_offends (entry : OptionEntry) :
    (∃ choice, entry.Gives choice) ∨ ∃ error, entry.Offends error := by
  cases value : entry.value with
  | none => exact .inr ⟨_, .value value⟩
  | some text =>
    by_cases known : ∃ key : OptionKey, entry.key = key.text
    · obtain ⟨key, known⟩ := known
      cases key with
      | store =>
        cases read : Settings.readValue (fun _ => Scan.ident) text with
        | ok name => exact .inl ⟨.store name, known, text, value, readValue_eq_ok.mp read⟩
        | error detail => exact .inr ⟨_, .store known value read⟩
      | runtime =>
        cases read : Settings.readValue (fun g => Rules.path g false) text with
        | ok path => exact .inl ⟨.runtime path, known, text, value, readValue_eq_ok.mp read⟩
        | error detail => exact .inr ⟨_, .runtime known value read⟩
      | format =>
        by_cases on : text = "true"
        · exact .inl ⟨.format true, known, text, value, on⟩
        by_cases off : text = "false"
        · exact .inl ⟨.format false, known, text, value, off⟩
        exact .inr ⟨_, .format known value on off⟩
    · exact .inr ⟨_, .key value fun key same => known ⟨key, same⟩⟩

theorem set_eq_ok : settings.set entry = .ok new ↔
    ∃ choice, entry.Gives choice ∧ new = choice.apply settings := by
  constructor
  · intro done
    rcases gives_or_offends entry with ⟨choice, gives⟩ | ⟨error, offends⟩
    · rw [set_of_gives gives] at done
      exact ⟨choice, gives, (Except.ok.inj done).symm⟩
    · rw [set_of_offends offends] at done
      cases done
  · rintro ⟨choice, gives, rfl⟩
    exact set_of_gives gives settings

theorem set_eq_error : settings.set entry = .error error ↔ entry.Offends error := by
  refine ⟨fun failed => ?_, fun offends => set_of_offends offends settings⟩
  rcases gives_or_offends entry with ⟨choice, gives⟩ | ⟨other, offends⟩
  · rw [set_of_gives gives] at failed
    cases failed
  · rw [set_of_offends offends] at failed
    exact Except.error.inj failed ▸ offends

/-- No entry makes the list malformed. -/
theorem Offends.ne_malformed (offends : entry.Offends error) (fault : Fault) :
    error ≠ .malformed fault := by
  cases offends <;> exact SettingsError.noConfusion

theorem literalText?_eq_some {pieces : List Piece} {text : String} :
    literalText? pieces = some text ↔
      ∃ quoted, pieces = [.token (.literal quoted)] ∧ Quoted.value? quoted = some text := by
  constructor
  · intro value
    unfold literalText? at value
    split at value
    next quoted => exact ⟨quoted, rfl, value⟩
    next => cases value
  · rintro ⟨quoted, rfl, value⟩
    exact value

theorem reads_read {g : Rules} : (read g).Reads cursor entry after ↔
    ∃ path named equated pieces, Rules.metaPath.Reads cursor path named ∧
      (∃ equals : Lexeme, equals.token = .punct '=' ∧ named.Passes [equals] equated) ∧
      (captured (Rules.metaValue g)).Reads equated ((), pieces) after ∧
      entry = ⟨path, Ahead.pos cursor.rest, literalText? pieces, Ahead.pos equated.rest⟩ := by
  rw [read, reads_ahead_bind]
  simp only [reads_bind, reads_ahead, reads_pure]
  constructor
  · rintro ⟨path, named, key, ⟨⟩, equated, sign, _, _, ⟨rfl, rfl⟩, ⟨⟨⟩, pieces⟩, _, value, rfl, rfl⟩
    exact ⟨path, named, _, pieces, key, (reads_expectSign rfl).mp sign, value, rfl⟩
  · rintro ⟨path, named, equated, pieces, key, sign, value, rfl⟩
    exact ⟨path, named, key, (), equated, (reads_expectSign rfl).mpr sign, _, _, ⟨rfl, rfl⟩,
      ((), pieces), after, value, rfl, rfl⟩

end OptionEntry

theorem OptionKey.isKeyword_text (key : OptionKey) :
    Ident.isKeyword ⟨key.text, false⟩ = false := by
  cases key <;> decide

theorem OptionKey.compact_code_eq_iff {path : NamePath} {key : OptionKey} :
    path.code.compact = key.text ↔ path = ⟨false, [⟨key.text, false⟩]⟩ := by
  cases key <;> exact NamePath.compact_code_eq_iff (by decide) (by decide)

/-- Ahead of a comma or the end, the value of an option stands where an entry is read that gives
it. -/
theorem Choice.stands_iff {cursor after : Cursor} {choice : Choice} {depth : Nat}
    (enough : depth ≠ 0) (ends : Scan.Listing.Ends ',' after.rest) :
    choice.Stands cursor after ↔ ∃ entry : OptionEntry,
      (OptionEntry.read (Rules.nested depth)).Reads cursor entry after ∧ entry.Gives choice := by
  have ends := Rules.EntryEnds.of_ends ends
  have free := choice.key.isKeyword_text
  have passes_pair {first second : Lexeme} {middle : Cursor} : cursor.Passes [first, second] middle ↔
      ∃ named, cursor.Passes [first] named ∧ named.Passes [second] middle := by
    rw [← Cursor.passes_append, List.singleton_append]
  constructor
  · rintro ⟨word, equals, literal, middle, quoted, text, begun, left, seen, key, sign, token, value,
      written⟩
    obtain ⟨named, first, second⟩ := passes_pair.mp begun
    have absent : Ahead.sign "::" named.rest = false := by
      obtain ⟨_, _, _⟩ := equals
      obtain rfl := sign
      rw [second.rest]
      rfl
    have path := (Rules.reads_metaPath_name free).mpr
      ⟨Scan.reads_anyWord.mpr ⟨word, key, first⟩, absent⟩
    have pieces := (Rules.reads_metaValue_literal enough ends).mpr ⟨literal, token, left, seen⟩
    exact ⟨_, OptionEntry.reads_read.mpr ⟨_, named, middle, _, path, ⟨equals, sign, second⟩, pieces,
      rfl⟩, OptionKey.compact_code_eq_iff.mpr rfl, text, value, written⟩
  · rintro ⟨entry, reads, key, text, value, written⟩
    obtain ⟨path, named, middle, pieces, word, ⟨equals, sign, second⟩, expr, rfl⟩ :=
      OptionEntry.reads_read.mp reads
    obtain rfl := OptionKey.compact_code_eq_iff.mp key
    obtain ⟨quoted, rfl, value⟩ := OptionEntry.literalText?_eq_some.mp value
    obtain ⟨literal, token, left, seen⟩ := (Rules.reads_metaValue_literal enough ends).mp expr
    obtain ⟨word, -⟩ := (Rules.reads_metaPath_name free).mp word
    obtain ⟨word, key, first⟩ := Scan.reads_anyWord.mp word
    exact ⟨word, equals, literal, middle, quoted, text,
      passes_pair.mpr ⟨named, first, second⟩, left, seen, key, sign,
      token, value, written⟩

namespace Settings

variable {settings new : Settings} {entries : List OptionEntry} {choices others : List Choice}
  {error : SettingsError} {lexemes : List Lexeme}

theorem setAll_eq_ok : setAll settings entries = .ok new ↔ ∃ choices : List Choice,
    List.Forall₂ OptionEntry.Gives entries choices ∧ new = choices.foldl Choice.apply settings := by
  induction entries generalizing settings with
  | nil =>
    constructor
    · intro done
      obtain rfl := Except.ok.inj done
      exact ⟨[], .nil, rfl⟩
    · rintro ⟨choices, given, rfl⟩
      obtain rfl := List.forall₂_nil_left_iff.mp given
      rfl
  | cons entry rest ih =>
    rw [setAll]
    constructor
    · intro done
      obtain ⟨next, first, done⟩ := ok_of_bind done
      obtain ⟨choice, gives, rfl⟩ := OptionEntry.set_eq_ok.mp first
      obtain ⟨choices, given, rfl⟩ := ih.mp done
      exact ⟨choice :: choices, .cons gives given, rfl⟩
    · rintro ⟨_, given, rfl⟩
      obtain ⟨choice, choices, gives, later, rfl⟩ := List.forall₂_cons_left_iff.mp given
      rw [OptionEntry.set_of_gives gives]
      exact ih.mpr ⟨choices, later, rfl⟩

/-- The first entry that offends is reported. -/
theorem setAll_eq_error : setAll settings entries = .error error ↔
    ∃ before entry rest, entries = before ++ entry :: rest ∧
      (∀ earlier ∈ before, ∃ choice, earlier.Gives choice) ∧ entry.Offends error := by
  induction entries generalizing settings with
  | nil =>
    constructor
    · intro failed
      cases failed
    · rintro ⟨_, _, _, same, -⟩
      simp at same
  | cons entry rest ih =>
    rw [setAll]
    constructor
    · intro failed
      rcases error_of_bind failed with first | ⟨next, first, later⟩
      · exact ⟨[], entry, rest, rfl, List.forall_mem_nil _, OptionEntry.set_eq_error.mp first⟩
      · obtain ⟨choice, gives, -⟩ := OptionEntry.set_eq_ok.mp first
        obtain ⟨before, found, behind, rfl, given, offends⟩ := ih.mp later
        exact ⟨entry :: before, found, behind, rfl,
          List.forall_mem_cons.mpr ⟨⟨choice, gives⟩, given⟩, offends⟩
    · rintro ⟨_ | ⟨first, before⟩, found, behind, same, given, offends⟩
      · obtain ⟨rfl, rfl⟩ := List.cons.inj same
        rw [OptionEntry.set_of_offends offends]
        rfl
      · obtain ⟨rfl, rfl⟩ := List.cons.inj same
        obtain ⟨⟨choice, gives⟩, given⟩ := List.forall_mem_cons.mp given
        rw [OptionEntry.set_of_gives gives]
        exact ih.mpr ⟨before, found, behind, rfl, given, offends⟩

end Settings

namespace Choice

def store? : Choice → Option Ident
  | store name => some name
  | runtime _ | format _ => none

def runtime? : Choice → Option Path
  | runtime path => some path
  | store _ | format _ => none

def format? : Choice → Option Bool
  | format on => some on
  | store _ | runtime _ => none

end Choice

namespace Settings

/-- For each option the value that was given last, or the one that it has without any. -/
def given (choices : List Choice) : Settings where
  store := (choices.reverse.findSome? Choice.store?).getD (store {})
  runtime := (choices.reverse.findSome? Choice.runtime?).getD (runtime {})
  format := (choices.reverse.findSome? Choice.format?).getD (format {})

theorem foldl_apply (choices : List Choice) : choices.foldl Choice.apply {} = given choices := by
  induction choices using List.reverseRecOn with
  | nil => rfl
  | append_singleton choices last ih =>
    rw [List.foldl_append, ih]
    unfold given
    rw [List.reverse_append]
    cases last <;> rfl

/-- What is sought among the values of one option is sought among all of them. -/
theorem findSome?_filter_key {α : Type} {value? : Choice → Option α} {key : OptionKey}
    (other : ∀ choice : Choice, choice.key ≠ key → value? choice = none) (choices : List Choice) :
    choices.reverse.findSome? value? =
      (choices.filter fun choice => choice.key = key).reverse.findSome? value? := by
  induction choices using List.reverseRecOn with
  | nil => rfl
  | append_singleton choices last ih =>
    rw [List.filter_append, List.reverse_append, List.reverse_append]
    by_cases here : last.key = key
    · rw [List.filter_cons_of_pos (by simpa using here)]
      simp only [List.filter_nil, List.reverse_singleton, List.singleton_append,
        List.findSome?_cons, ih]
    · rw [List.filter_cons_of_neg (by simpa using here)]
      simp only [List.filter_nil, List.reverse_singleton, List.singleton_append,
        List.findSome?_cons, other last here, List.reverse_nil, List.nil_append, ih]

/-- The order of values for different options is of no account. -/
theorem given_congr (same : ∀ key, choices.filter (fun choice => choice.key = key) =
    others.filter fun choice => choice.key = key) : given choices = given others := by
  have sought {α : Type} {value? : Choice → Option α} {key : OptionKey}
      (other : ∀ choice : Choice, choice.key ≠ key → value? choice = none) :
      choices.reverse.findSome? value? = others.reverse.findSome? value? := by
    rw [findSome?_filter_key other choices, same, ← findSome?_filter_key other others]
  have store : ∀ choice : Choice, choice.key ≠ .store → choice.store? = none := by
    rintro (_ | _ | _) elsewhere
    · exact absurd rfl elsewhere
    · rfl
    · rfl
  have runtime : ∀ choice : Choice, choice.key ≠ .runtime → choice.runtime? = none := by
    rintro (_ | _ | _) elsewhere
    · rfl
    · exact absurd rfl elsewhere
    · rfl
  have format : ∀ choice : Choice, choice.key ≠ .format → choice.format? = none := by
    rintro (_ | _ | _) elsewhere
    · rfl
    · rfl
    · exact absurd rfl elsewhere
  rw [given, given, sought store, sought runtime, sought format]

/-- The tokens are values for options with commas between them and perhaps behind them. -/
def Lists (lexemes : List Lexeme) (choices : List Choice) : Prop :=
  ∃ after, Scan.Listing ',' Choice.Stands ⟨lexemes, []⟩ choices after

/-- The tokens are entries, of whatever keys and values, with commas between them and perhaps
behind them. -/
def Entries (lexemes : List Lexeme) (entries : List OptionEntry) : Prop :=
  ∃ after, Scan.Listing ',' (OptionEntry.read (Rules.nested (4 * lexemes.length + 16))).Reads
    ⟨lexemes, []⟩ entries after

theorem readAll_readList_eq_ok :
    readAll OptionEntry.readList lexemes = .ok entries ↔ Entries lexemes entries := by
  rw [readAll_eq_ok]
  refine exists_congr fun after => ?_
  rw [OptionEntry.readList, Scan.reads_listed rfl]
  exact ⟨And.left, fun listing => ⟨listing, listing.finished⟩⟩

/-- The lists of values are the lists of entries that give them. -/
theorem lists_iff : Lists lexemes choices ↔
    ∃ entries, Entries lexemes entries ∧ List.Forall₂ OptionEntry.Gives entries choices := by
  have stands (cursor : Cursor) (choice : Choice) (after : Cursor)
      (ends : Scan.Listing.Ends ',' after.rest) : choice.Stands cursor after ↔ _ :=
    Choice.stands_iff (Nat.succ_ne_zero (4 * lexemes.length + 15)) ends
  constructor
  · rintro ⟨after, listing⟩
    obtain ⟨entries, read, given⟩ := (Scan.Listing.forall₂_iff stands).mp listing
    exact ⟨entries, ⟨after, read⟩, given⟩
  · rintro ⟨entries, ⟨after, read⟩, given⟩
    exact ⟨after, (Scan.Listing.forall₂_iff stands).mpr ⟨entries, read, given⟩⟩

/-- What the tokens of a round's options are read as. -/
structure Grammatical (lexemes : List Lexeme) : Prop where
  accepted {settings : Settings} : ofTokens lexemes = .ok settings ↔
    ∃ choices, Lists lexemes choices ∧ settings = given choices
  malformed : (∃ fault, ofTokens lexemes = .error (.malformed fault)) ↔
    ¬ ∃ entries, Entries lexemes entries
  /-- What is reported of a list that can be read is its first offending entry. -/
  offending {entries : List OptionEntry} (read : Entries lexemes entries) {error : SettingsError} :
    ofTokens lexemes = .error error ↔ ∃ before entry rest, entries = before ++ entry :: rest ∧
      (∀ earlier ∈ before, ∃ choice, earlier.Gives choice) ∧ entry.Offends error
  /-- Entries for different options may change places. -/
  reordered {choices others : List Choice} {permuted : List Lexeme} (listed : Lists lexemes choices)
    (again : Lists permuted others) (same : ∀ key, choices.filter (fun choice => choice.key = key) =
      others.filter fun choice => choice.key = key) : ofTokens permuted = ofTokens lexemes

theorem ofTokens_of_entries (read : Entries lexemes entries) :
    ofTokens lexemes = setAll {} entries := by
  rw [ofTokens, readAll_readList_eq_ok.mpr read]
  rfl

theorem ofTokens_of_not_entries (unread : ¬ ∃ entries, Entries lexemes entries) :
    ∃ fault, ofTokens lexemes = .error (.malformed fault) := by
  cases list : readAll OptionEntry.readList lexemes with
  | ok entries => exact absurd ⟨entries, readAll_readList_eq_ok.mp list⟩ unread
  | error fault =>
    refine ⟨fault, ?_⟩
    rw [ofTokens, list]
    rfl

theorem ofTokens_eq_ok :
    ofTokens lexemes = .ok settings ↔ ∃ choices, Lists lexemes choices ∧ settings = given choices := by
  constructor
  · intro done
    by_cases read : ∃ entries, Entries lexemes entries
    · obtain ⟨entries, read⟩ := read
      rw [ofTokens_of_entries read] at done
      obtain ⟨choices, gives, rfl⟩ := setAll_eq_ok.mp done
      exact ⟨choices, lists_iff.mpr ⟨entries, read, gives⟩, foldl_apply choices⟩
    · obtain ⟨fault, failed⟩ := ofTokens_of_not_entries read
      rw [failed] at done
      cases done
  · rintro ⟨choices, listed, rfl⟩
    obtain ⟨entries, read, gives⟩ := lists_iff.mp listed
    rw [ofTokens_of_entries read]
    exact setAll_eq_ok.mpr ⟨choices, gives, (foldl_apply choices).symm⟩

/-- Options are read if and only if they are values for the three keys, the last for each of them
counts, and what is reported otherwise is that there is no list, or its first offending entry. -/
theorem ofTokens_grammatical (lexemes : List Lexeme) : Grammatical lexemes where
  accepted := ofTokens_eq_ok
  malformed := by
    refine ⟨?_, ofTokens_of_not_entries⟩
    rintro ⟨fault, failed⟩ ⟨entries, read⟩
    rw [ofTokens_of_entries read] at failed
    obtain ⟨_, entry, _, -, -, offends⟩ := setAll_eq_error.mp failed
    exact offends.ne_malformed fault rfl
  offending read := by
    rw [ofTokens_of_entries read]
    exact setAll_eq_error
  reordered listed again same := by
    rw [ofTokens_eq_ok.mpr ⟨_, listed, rfl⟩, ofTokens_eq_ok.mpr ⟨_, again, rfl⟩, given_congr same]

end Settings
end EntityGen
