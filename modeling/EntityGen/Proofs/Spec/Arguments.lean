import EntityGen.Proofs.Token.Scanning
import EntityGen.Spec.Marks
import Mathlib.Data.List.Induction

/-! What the attribute of a spec says. Its arguments are entries with a name, an equals sign and a
string, and the last entry of a name counts. -/
namespace EntityGen.SpecName
open Scan

variable {cursor after : Cursor}

inductive Key where
  | name
  | className
  deriving DecidableEq

def Key.text : Key → String
  | name => "name"
  | className => "class_name"

structure Entry where
  key : Key
  value : String
  /-- Where the string stands. -/
  pos : Pos

namespace Entry

/-- The entry stands ahead: its name, an equals sign and its string. -/
def Stands (cursor : Cursor) (entry : Entry) (after : Cursor) : Prop :=
  ∃ word equals literal text, cursor.Passes [word, equals, literal] after ∧
    word.token = .plain entry.key.text ∧ equals.token = .punct '=' ∧
    literal.token = .literal text ∧ Quoted.value? text = some entry.value ∧
    literal.pos = entry.pos

def change (entry : Entry) (given : Given) : Given :=
  match entry.key with
  | .name => { given with name := some (entry.value, entry.pos) }
  | .className => { given with className := some (entry.value, entry.pos) }

def last? (key : Key) (entries : List Entry) : Option String :=
  (entries.reverse.find? fun entry => entry.key = key).map value

end Entry

theorem reads_nextName {names : List Ident} {next : Option (List Ident)} :
    (nextName names).Reads cursor next after ↔
      (next = none ∧ after = cursor ∧ Ahead.sign "::" cursor.rest = false) ∨
        ∃ x middle, (optionalSign "::").Reads cursor true middle ∧ anyWord.Reads middle x after ∧
          next = some (names ++ [x]) := by
  rw [nextName, reads_bind]
  constructor
  · rintro ⟨double, middle, sign, reads⟩
    cases double with
    | true =>
      obtain ⟨x, _, word, result⟩ := reads_bind.mp reads
      obtain ⟨rfl, rfl⟩ := reads_pure.mp result
      exact .inr ⟨x, middle, sign, word, rfl⟩
    | false =>
      obtain ⟨absent, rfl⟩ := reads_optionalSign_false.mp sign
      obtain ⟨rfl, rfl⟩ := reads_pure.mp reads
      exact .inl ⟨rfl, rfl, absent⟩
  · rintro (⟨rfl, rfl, absent⟩ | ⟨x, middle, sign, word, rfl⟩)
    · exact ⟨false, after, reads_optionalSign_false.mpr ⟨absent, rfl⟩, reads_pure.mpr ⟨rfl, rfl⟩⟩
    · exact ⟨true, middle, sign, reads_bind.mpr ⟨x, after, word, reads_pure.mpr ⟨rfl, rfl⟩⟩⟩

/-- No round takes a name away. -/
theorem length_le_of_foldRounds {fuel : Nat} {names all : List Ident}
    (reads : (foldRounds fuel nextName names).Reads cursor all after) :
    names.length ≤ all.length := by
  refine le_of_reads_foldRounds List.length (fun cursor names next after step => ?_) reads
  obtain ⟨same, -, -⟩ | ⟨x, _, -, -, same⟩ := reads_nextName.mp step
  · cases same
  · obtain rfl := Option.some.inj same
    rw [List.length_append]
    exact Nat.le_add_right _ _

/-- A path has one name if no double colon stands behind it. -/
theorem reads_names_singleton {first x : Ident} :
    (folded nextName [first]).Reads cursor [x] after ↔
      x = first ∧ after = cursor ∧ Ahead.sign "::" cursor.rest = false := by
  rw [folded, reads_ahead_bind, foldRounds, reads_bind]
  constructor
  · rintro ⟨_, middle, step, rest⟩
    obtain ⟨rfl, rfl, absent⟩ | ⟨y, _, -, -, rfl⟩ := reads_nextName.mp step
    · obtain ⟨same, rfl⟩ := reads_pure.mp rest
      exact ⟨List.singleton_inj.mp same, rfl, absent⟩
    · exact absurd (length_le_of_foldRounds rest) (by simp)
  · rintro ⟨rfl, rfl, absent⟩
    exact ⟨none, after, reads_nextName.mpr (.inl ⟨rfl, rfl, absent⟩), reads_pure.mpr ⟨rfl, rfl⟩⟩

theorem reads_argumentPath {path : NamePath} {pos : Pos} :
    argumentPath.Reads cursor (path, pos) after ↔
      ∃ begun first named, (optionalSign "::").Reads cursor path.leading begun ∧
        anyWord.Reads begun first named ∧ (folded nextName [first]).Reads named path.names after ∧
        pos = Ahead.pos begun.rest := by
  rw [argumentPath, reads_bind]
  constructor
  · rintro ⟨leading, begun, sign, reads⟩
    rw [reads_ahead_bind] at reads
    cases ahead : Ahead.anyWord begun.rest with
    | false =>
      simp only [ahead, Bool.not_false, if_true] at reads
      split at reads
      next => simp [reads_bind] at reads
      next => split at reads <;> simp [reads_bind] at reads
    | true =>
      rw [if_neg (by simp [ahead])] at reads
      obtain ⟨first, named, word, reads⟩ := reads_bind.mp reads
      obtain ⟨names, _, others, result⟩ := reads_bind.mp reads
      obtain ⟨same, rfl⟩ := reads_pure.mp result
      obtain ⟨rfl, rfl⟩ := Prod.mk.inj same
      exact ⟨begun, first, named, sign, word, others, rfl⟩
  · rintro ⟨begun, first, named, sign, word, others, rfl⟩
    refine ⟨path.leading, begun, sign, ?_⟩
    obtain ⟨lexeme, token, passes⟩ := reads_anyWord.mp word
    have ahead : Ahead.anyWord begun.rest := by
      rw [Ahead.anyWord, Ahead.word?_eq_some.mpr ⟨lexeme, _, passes.rest, token⟩]
      rfl
    rw [reads_ahead_bind, if_neg (by simp [ahead])]
    exact reads_bind.mpr ⟨first, named, word, reads_bind.mpr ⟨path.names, after, others,
      reads_pure.mpr ⟨rfl, rfl⟩⟩⟩

/-- A path of one name is that word, with no double colon before or behind it. -/
theorem reads_argumentPath_word {path : NamePath} {pos : Pos} {name : String}
    (word : path.isWord name) :
    argumentPath.Reads cursor (path, pos) after ↔
      (∃ lexeme, lexeme.token = .plain name ∧ lexeme.pos = pos ∧ cursor.Passes [lexeme] after) ∧
        Ahead.sign "::" after.rest = false := by
  obtain rfl := eq_of_beq word
  rw [reads_argumentPath]
  constructor
  · rintro ⟨begun, first, named, sign, word, others, rfl⟩
    obtain ⟨-, rfl⟩ := reads_optionalSign_false.mp sign
    obtain ⟨rfl, rfl, absent⟩ := reads_names_singleton.mp others
    obtain ⟨lexeme, token, passes⟩ := reads_anyWord.mp word
    exact ⟨⟨lexeme, token, by rw [passes.rest]; rfl, passes⟩, absent⟩
  · rintro ⟨⟨lexeme, token, rfl, passes⟩, absent⟩
    refine ⟨cursor, ⟨name, false⟩, after, reads_optionalSign_false.mpr ⟨?_, rfl⟩,
      reads_anyWord.mpr ⟨lexeme, token, passes⟩,
      reads_names_singleton.mpr ⟨rfl, rfl, absent⟩, by rw [passes.rest]; rfl⟩
    obtain ⟨_, _, _⟩ := lexeme
    obtain rfl := token
    rw [passes.rest]
    rfl

theorem reads_argumentValue {value : String} {pos : Pos} :
    argumentValue.Reads cursor (value, pos) after ↔
      ∃ equals literal text, cursor.Passes [equals, literal] after ∧ equals.token = .punct '=' ∧
        literal.token = .literal text ∧ Quoted.value? text = some value ∧ literal.pos = pos := by
  rw [argumentValue, reads_bind]
  simp only [reads_expectSign (show "=".toList = ['='] from rfl), reads_ahead_bind]
  constructor
  · rintro ⟨_, middle, ⟨equals, token, passes⟩, reads⟩
    split at reads
    next text quoted =>
      obtain ⟨written, found, valued⟩ := Option.bind_eq_some_iff.mp quoted
      obtain ⟨literal, rest, left, same⟩ := Ahead.literalText?_eq_some.mp found
      obtain ⟨_, _, taken, result⟩ := reads_bind.mp reads
      obtain ⟨both, rfl⟩ := reads_pure.mp result
      obtain ⟨rfl, rfl⟩ := Prod.mk.inj both
      refine ⟨equals, literal, written, ?_, token, same, valued, by rw [left]; rfl⟩
      exact Cursor.passes_append.mpr ⟨middle, passes, (reads_take_of_rest left).mp taken⟩
    next => exact absurd reads not_reads_fail
  · rintro ⟨equals, literal, text, passes, token, same, valued, rfl⟩
    have both : cursor.Passes ([equals] ++ [literal]) after := passes
    obtain ⟨middle, first, second⟩ := Cursor.passes_append.mp both
    refine ⟨(), middle, ⟨equals, token, first⟩, ?_⟩
    have found : Ahead.literalText? middle.rest = some text :=
      Ahead.literalText?_eq_some.mpr ⟨literal, _, second.rest, same⟩
    rw [found, Option.bind_some, valued]
    refine reads_bind.mpr ⟨(), after, (reads_take_of_rest second.rest).mpr second, ?_⟩
    exact reads_pure.mpr ⟨by rw [second.rest]; rfl, rfl⟩

/-- An argument is an entry, as the change that it makes. -/
theorem reads_argument {change : Given → Given} : argument.Reads cursor change after ↔
    ∃ entry, Entry.Stands cursor entry after ∧ entry.change = change := by
  rw [argument, reads_bind]
  constructor
  · rintro ⟨⟨path, pos⟩, middle, named, reads⟩
    have entry (key : Key) (word : path.isWord key.text) {value : String × Pos}
        (valued : argumentValue.Reads middle value after) :
        Entry.Stands cursor ⟨key, value.1, value.2⟩ after := by
      obtain ⟨⟨lexeme, token, -, first⟩, -⟩ := (reads_argumentPath_word word).mp named
      obtain ⟨equals, literal, text, others, sign, same, quoted, pos⟩ :=
        reads_argumentValue.mp valued
      exact ⟨lexeme, equals, literal, text, Cursor.passes_append.mpr ⟨middle, first, others⟩, token,
        sign, same, quoted, pos⟩
    dsimp only at reads
    split at reads
    next word =>
      obtain ⟨value, _, valued, result⟩ := reads_bind.mp reads
      obtain ⟨rfl, rfl⟩ := reads_pure.mp result
      exact ⟨_, entry .name word valued, rfl⟩
    next =>
      split at reads
      next word =>
        obtain ⟨value, _, valued, result⟩ := reads_bind.mp reads
        obtain ⟨rfl, rfl⟩ := reads_pure.mp result
        exact ⟨_, entry .className word valued, rfl⟩
      next => exact absurd reads not_reads_throw
  · rintro ⟨⟨key, value, pos⟩,
      ⟨lexeme, equals, literal, text, passes, token, sign, same, quoted, rfl⟩, rfl⟩
    have both : cursor.Passes ([lexeme] ++ [equals, literal]) after := passes
    obtain ⟨middle, first, others⟩ := Cursor.passes_append.mp both
    have valued : argumentValue.Reads middle (value, literal.pos) after :=
      reads_argumentValue.mpr ⟨equals, literal, text, others, sign, same, quoted, rfl⟩
    have absent : Ahead.sign "::" middle.rest = false := by
      obtain ⟨_, _, _⟩ := equals
      obtain rfl := sign
      rw [others.rest]
      rfl
    refine ⟨(⟨false, [⟨key.text, false⟩]⟩, lexeme.pos), middle, (reads_argumentPath_word
      (beq_self_eq_true _)).mpr ⟨⟨lexeme, token, rfl, first⟩, absent⟩, ?_⟩
    cases key with
    | name => exact reads_bind.mpr ⟨_, after, valued, reads_pure.mpr ⟨rfl, rfl⟩⟩
    | className => exact reads_bind.mpr ⟨_, after, valued, reads_pure.mpr ⟨rfl, rfl⟩⟩

theorem listing_argument {changes : List (Given → Given)} :
    Listing ',' argument.Reads cursor changes after ↔
      ∃ entries, Listing ',' Entry.Stands cursor entries after ∧
        entries.map Entry.change = changes :=
  Listing.map_iff fun _ _ _ => reads_argument

def Entry.given (entries : List Entry) : Given :=
  entries.foldl (fun given entry => entry.change given) {}

/-- Of all entries of a name, the last one is left. -/
theorem Entry.fst_given (entries : List Entry) :
    (Entry.given entries).name.map Prod.fst = Entry.last? .name entries ∧
      (Entry.given entries).className.map Prod.fst = Entry.last? .className entries := by
  induction entries using List.reverseRecOn with
  | nil => exact ⟨rfl, rfl⟩
  | append_singleton entries entry ih =>
    have both : Entry.given (entries ++ [entry]) = entry.change (Entry.given entries) :=
      List.foldl_append
    rw [both]
    cases key : entry.key with
    | name =>
      exact ⟨by simp [Entry.change, Entry.last?, key],
        by simpa [Entry.change, Entry.last?, key] using ih.2⟩
    | className =>
      exact ⟨by simpa [Entry.change, Entry.last?, key] using ih.1,
        by simp [Entry.change, Entry.last?, key]⟩

/-- The arguments of an attribute are entries up to the end. -/
theorem readAll_arguments {content : List Lexeme} {given : Given} :
    readAll (fun _ => arguments) content = .ok given ↔
      ∃ entries after, Listing ',' Entry.Stands ⟨content, []⟩ entries after ∧
        given = Entry.given entries := by
  have comma : ",".toList = [','] := rfl
  rw [readAll_eq_ok]
  have read (after : Cursor) : arguments.Reads ⟨content, []⟩ given after ↔
      ∃ entries, Listing ',' Entry.Stands ⟨content, []⟩ entries after ∧
        given = Entry.given entries := by
    rw [arguments, reads_bind]
    constructor
    · rintro ⟨changes, _, reads, result⟩
      obtain ⟨rfl, rfl⟩ := reads_pure.mp result
      obtain ⟨entries, listing, rfl⟩ := listing_argument.mp ((reads_listed comma).mp reads)
      exact ⟨entries, listing, List.foldl_map⟩
    · rintro ⟨entries, listing, rfl⟩
      exact ⟨entries.map Entry.change, after,
        (reads_listed comma).mpr (listing_argument.mpr ⟨entries, listing, rfl⟩),
        reads_pure.mpr ⟨by rw [List.foldl_map]; rfl, rfl⟩⟩
  simp only [read]
  constructor
  · rintro ⟨after, ⟨entries, listing, same⟩, -⟩
    exact ⟨entries, after, listing, same⟩
  · rintro ⟨entries, after, listing, same⟩
    exact ⟨after, ⟨entries, listing, same⟩, listing.finished⟩

/-- The attributes name an entity: one of them is that of a spec, its arguments are entries, and
the last of them for each name count. The entity has a name that is not empty. -/
structure Of (attrs : List Attribute) (names : SpecName) : Prop where
  entered : ∃ attr d content entries after, attrs.filter Attribute.isSpec = [attr] ∧
    attr.args = .list d content ∧ Listing ',' Entry.Stands ⟨content, []⟩ entries after ∧
    Entry.last? .name entries = some names.name ∧
    Entry.last? .className entries = names.className
  nonempty : names.name ≠ ""

theorem ofAttributes_eq_ok {attrs : List Attribute} {fallback : String} {names : SpecName} :
    ofAttributes attrs fallback = .ok names ↔ Of attrs names := by
  unfold ofAttributes
  constructor
  · intro done
    dsimp only at done
    split at done
    next => cases done
    next attr only =>
      split at done
      next => cases done
      next given read =>
        split at done
        next => cases done
        next name pos named =>
          split at done
          next => cases done
          next nonempty =>
            obtain rfl := Except.ok.inj done
            unfold Attribute.readArgs at read
            split at read
            next d content list =>
              obtain ⟨entries, after, listing, rfl⟩ := readAll_arguments.mp read
              obtain ⟨first, second⟩ := Entry.fst_given entries
              refine ⟨⟨attr, d, content, entries, after, only, list, listing, ?_, second.symm⟩,
                by simpa using nonempty⟩
              rw [← first, named]
              rfl
            next => cases read
            next => cases read
    next => cases done
  · rintro ⟨⟨attr, d, content, entries, after, only, list, listing, named, classNamed⟩, nonempty⟩
    have read : attr.readArgs (fun _ => arguments) = .ok (Entry.given entries) := by
      rw [Attribute.readArgs, list]
      exact readAll_arguments.mpr ⟨entries, after, listing, rfl⟩
    obtain ⟨first, second⟩ := Entry.fst_given entries
    rw [named] at first
    obtain ⟨⟨name, pos⟩, given, rfl⟩ := Option.map_eq_some_iff.mp first
    rw [only]
    dsimp only
    rw [read]
    dsimp only
    rw [given]
    dsimp only
    rw [if_neg (by simpa using nonempty), second, classNamed]

/-- Whatever is wrong with the attribute, it says nothing of marked fields. -/
theorem invalid_of_ofAttributes {attrs : List Attribute} {fallback : String} {error : SpecError}
    (failed : ofAttributes attrs fallback = .error error) :
    ∃ defect, error.fault = .invalid defect := by
  unfold ofAttributes at failed
  dsimp only at failed
  repeat' split at failed
  all_goals first | (obtain rfl := Except.error.inj failed; exact ⟨_, rfl⟩) | cases failed

end EntityGen.SpecName
