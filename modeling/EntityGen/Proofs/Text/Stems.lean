import EntityGen.Proofs.Round.Paths
import EntityGen.Naming

/-! Names in snake case again as parts of identifiers. What an identifier may have in it, it may
have in lower case too, so that only the beginning of a stem can be amiss: a digit that stood
behind a low line. -/
namespace EntityGen

namespace Text

variable {c d : Char} {word : List Char}

theorem toNat_ofNat_of_valid {n : Nat} (valid : n.isValidChar) : (Char.ofNat n).toNat = n := by
  have here : Char.ofNat n = Char.ofNatAux n valid := dif_pos valid
  rw [here]
  rfl

theorem contains_iff {set : CharSet} :
    set.contains c ↔ ∃ range ∈ set.toList, range.1 ≤ c.toNat ∧ c.toNat ≤ range.2 := by
  rw [CharSet.contains, ← Array.any_toList, List.any_eq_true]
  simp only [Bool.and_eq_true, decide_eq_true_eq]

/-- What is read off the tables of characters, entry by entry. -/
structure Tables : Prop where
  bounds : ∀ range ∈ identifierStartRanges.toList,
    0x80 ≤ range.1 ∧ (range.2 < 0xd800 ∨ 0xdfff < range.1 ∧ range.2 < 0x110000)
  /-- No range has a letter in a circle. -/
  apart : ∀ range ∈ identifierStartRanges.toList ++ identifierContinueRanges.toList,
    range.2 < 0x24b6 ∨ 0x24cf < range.1
  targets : (lowercaseShifts.toList.all fun entry =>
    entry == (0x24b6, 0x24cf, 1, 0x24d0) || entry == (0x212a, 0x212a, 1, 0x6b) ||
      identifierStartRanges.toList.any fun range => Nat.ble range.1 entry.2.2.2 &&
        Nat.ble (entry.2.2.2 + (entry.2.1 - entry.1)) range.2) = true
  ascii : ∀ n < 0x80, isIdentifierContinue (Char.ofNat n) →
    isIdentifierContinue (Char.ofNat n).toLower
  dot : (0x300, 0x36f) ∈ identifierContinueRanges.toList
  sigma : (0x3a3, 0x3f5) ∈ identifierStartRanges.toList

theorem tables : Tables where
  bounds := by decide +kernel
  apart := by decide +kernel
  targets := by decide +kernel
  ascii := by decide +kernel
  dot := by decide +kernel
  sigma := by decide +kernel

theorem isIdentifierContinue_of_range {n : Nat} {range : Nat × Nat}
    (member : range ∈ identifierStartRanges.toList) (first : range.1 ≤ n) (last : n ≤ range.2) :
    isIdentifierContinue (Char.ofNat n) := by
  obtain ⟨above, valid⟩ := Tables.bounds tables range member
  have code : (Char.ofNat n).toNat = n :=
    toNat_ofNat_of_valid (valid.imp (by omega) (by omega))
  refine isIdentifierContinue_of_start ?_
  rw [isIdentifierStart, code, if_neg (by omega), contains_iff, code]
  exact ⟨range, member, first, last⟩

/-- A letter in a circle is in no identifier. -/
theorem not_isIdentifierContinue_circled (first : 0x24b6 ≤ c.toNat) (last : c.toNat ≤ 0x24cf) :
    ¬isIdentifierContinue c := by
  obtain ⟨start, continue_⟩ := List.forall_mem_append.mp (Tables.apart tables)
  rw [isIdentifierContinue, if_neg (by omega), Bool.or_eq_true, contains_iff, contains_iff]
  rintro (⟨range, member, bounds⟩ | ⟨range, member, bounds⟩)
  · have := start range member
    omega
  · have := continue_ range member
    omega

/-- Characters that move stay parts of identifiers. Of those that move to no letter above ASCII one
moves to a letter below, and letters in circles are in no identifier themselves. -/
theorem isIdentifierContinue_apply_lowercaseShifts (known : isIdentifierContinue c) :
    isIdentifierContinue (lowercaseShifts.apply c) := by
  unfold ShiftTable.apply
  split
  next first last _ target found =>
    have inside := Array.find?_some found
    simp only [Bool.and_eq_true, decide_eq_true_eq] at inside
    obtain ⟨⟨lower, upper⟩, -⟩ := inside
    have checked := List.all_eq_true.mp (Tables.targets tables) _
      (Array.mem_toList_iff.mpr (Array.mem_of_find?_eq_some found))
    simp only [Bool.or_eq_true, beq_iff_eq, Prod.mk.injEq, List.any_eq_true, Bool.and_eq_true,
      Nat.ble_eq] at checked
    rcases checked with (⟨rfl, rfl, -⟩ | ⟨rfl, rfl, -, rfl⟩) | ⟨range, member, start, stop⟩
    · exact absurd known (not_isIdentifierContinue_circled lower upper)
    · rw [Nat.le_antisymm upper lower]
      decide
    · exact isIdentifierContinue_of_range member (by omega) (by omega)
  next => exact known

theorem isIdentifierContinue_of_mem_toLowercase (known : isIdentifierContinue c) :
    ∀ d ∈ toLowercase c, isIdentifierContinue d := by
  unfold toLowercase
  split
  next ascii =>
    have here := Tables.ascii tables c.toNat ascii
    rw [Char.ofNat_toNat] at here
    exact List.forall_mem_singleton.mpr (here known)
  next =>
    split
    next codes found =>
      have dot : isIdentifierContinue (Char.ofNat 0x307) := by
        rw [isIdentifierContinue, if_neg (by decide), Bool.or_eq_true, contains_iff, contains_iff]
        exact .inr ⟨(0x300, 0x36f), Tables.dot tables, by decide, by decide⟩
      have expansions : ∀ entry ∈ lowercaseExpansions, ∀ d ∈ entry.2.map Char.ofNat,
          isIdentifierContinue d := by
        simpa [lowercaseExpansions] using ⟨by decide, dot⟩
      exact expansions _ (mem_of_lookup_expansions found)
    next => exact List.forall_mem_singleton.mpr (isIdentifierContinue_apply_lowercaseShifts known)

theorem isIdentifierContinue_of_mem_lowerWord (known : ∀ c ∈ word, isIdentifierContinue c) :
    ∀ d ∈ lowerWord word, isIdentifierContinue d := by
  fun_induction lowerWord word with
  | case1 => exact List.forall_mem_nil _
  | case2 =>
    have sigma : isIdentifierContinue 'ς' :=
      isIdentifierContinue_of_range (Tables.sigma tables) (by decide) (by decide)
    exact List.forall_mem_singleton.mpr sigma
  | case3 c => exact isIdentifierContinue_of_mem_toLowercase (known c (.head _))
  | case4 c rest _ ih =>
    obtain ⟨here, later⟩ := List.forall_mem_cons.mp known
    exact List.forall_mem_append.mpr ⟨isIdentifierContinue_of_mem_toLowercase here, ih later⟩

theorem mem_of_mem_pieces {cut : Char → Bool} (text : List Char) :
    ∀ piece ∈ pieces cut text, ∀ c ∈ piece, c ∈ text := by
  induction text with
  | nil => simp [pieces]
  | cons c rest ih =>
    have later : ∀ piece ∈ pieces cut rest, ∀ d ∈ piece, d ∈ c :: rest :=
      fun piece member d inside => .tail _ (ih piece member d inside)
    unfold pieces
    split
    next => exact later
    next =>
      split
      next => simp
      next =>
        split
        next => exact List.forall_mem_cons.mpr ⟨by simp, later⟩
        next =>
          split
          next => simp
          next word others found =>
            rw [found] at later
            obtain ⟨first, later⟩ := List.forall_mem_cons.mp later
            exact List.forall_mem_cons.mpr ⟨List.forall_mem_cons.mpr ⟨.head _, first⟩, later⟩

/-- A name in snake case has in it what identifiers have if the letters and numbers of the name are
such. -/
theorem isIdentifierContinue_of_mem_snakeCase {text : String}
    (known : ∀ c ∈ text.toList, isAlphanumeric c → isIdentifierContinue c) :
    ∀ d ∈ (snakeCase text).toList, isIdentifierContinue d := by
  rw [snakeCase_eq, String.toList_ofList, joined]
  intro d member
  obtain ⟨part, among, inside⟩ := List.mem_flatten.mp member
  rcases eq_or_mem_of_mem_intersperse among with rfl | lowered
  · obtain rfl := List.mem_singleton.mp inside
    decide
  · obtain ⟨word, found, rfl⟩ := List.mem_map.mp lowered
    obtain ⟨piece, cut, words⟩ := List.mem_flatMap.mp found
    refine isIdentifierContinue_of_mem_lowerWord (forall_wordsFrom (by simp) ?_ word words) d inside
    intro c within
    exact known c (mem_of_mem_pieces _ piece cut c within)
      (by simpa using not_cut_of_mem_pieces _ piece cut c within)

end Text

theorem isIdentifierText_iff {text : String} : isIdentifierText text ↔
    (∃ c ∈ text.toList.head?, Text.isIdentifierStart c) ∧
      ∀ c ∈ text.toList, Text.isIdentifierContinue c := by
  unfold isIdentifierText
  split
  next empty => simp [empty]
  next c rest all =>
    rw [all, Bool.and_eq_true, List.all_eq_true, List.forall_mem_cons]
    simp only [List.head?_cons, Option.mem_def, Option.some.injEq, exists_eq_left']
    exact ⟨fun ⟨start, later⟩ => ⟨start, Text.isIdentifierContinue_of_start start, later⟩,
      fun ⟨start, _, later⟩ => ⟨start, later⟩⟩

namespace Naming

variable {x : Ident}

theorem isIdentifierContinue_of_mem_stem (valid : isIdentifierText x.name) :
    ∀ c ∈ (stem x).toList, Text.isIdentifierContinue c := by
  refine Text.isIdentifierContinue_of_mem_snakeCase fun c member known => ?_
  have inName := (isIdentifierText_iff.mp valid).2
  unfold Ident.text at member
  split at member
  · rw [String.toList_append, List.mem_append] at member
    rcases member with mark | member
    · -- Of the mark in front of a raw name the letter alone is alphanumeric.
      have letters : ("r#".toList.all fun c =>
          !Text.isAlphanumeric c || Text.isIdentifierContinue c) = true := by decide
      simpa [known] using List.all_eq_true.mp letters c mark
    · exact inName c member
  · exact inName c member

/-- A stem behind the head of an identifier makes an identifier. -/
theorem isIdentifierText_append_stem {head : String} (begins : isIdentifierText head)
    (valid : isIdentifierText x.name) : isIdentifierText (head ++ stem x) := by
  obtain ⟨⟨c, first, start⟩, inHead⟩ := isIdentifierText_iff.mp begins
  rw [isIdentifierText_iff, String.toList_append]
  refine ⟨⟨c, ?_, start⟩, ?_⟩
  · rw [Option.mem_def] at first
    rw [List.head?_append, first]
    rfl
  · exact List.forall_mem_append.mpr ⟨inHead, isIdentifierContinue_of_mem_stem valid⟩

def StemBegins (x : Ident) : Prop := ∀ c ∈ (stem x).toList.head?, Text.isIdentifierStart c

theorem isIdentifierText_byId_iff (valid : isIdentifierText x.name) :
    isIdentifierText (stem x ++ "_by_id") ↔ StemBegins x := by
  have inStem := isIdentifierContinue_of_mem_stem valid
  have tail : "_by_id".toList.all Text.isIdentifierContinue = true := by decide
  have low : Text.isIdentifierStart '_' := by decide
  rw [isIdentifierText_iff, String.toList_append, StemBegins,
    and_iff_left (List.forall_mem_append.mpr ⟨inStem, List.all_eq_true.mp tail⟩)]
  cases (stem x).toList with
  | nil => simpa using low
  | cons c rest => simp

end Naming
end EntityGen
