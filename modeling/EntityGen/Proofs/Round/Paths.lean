import EntityGen.Round.Folder

/-! The paths of the files of a round. A name in snake case has no separator of paths in it, so that
a path tells the folders on the way to its file and the name of the file. -/
namespace EntityGen

namespace Text

variable {c : Char} {word others : List Char}

theorem eq_slash_of_ofNat {n : Nat} (same : Char.ofNat n = '/') : n = 0x2f := by
  by_cases valid : n.isValidChar
  · have here : Char.ofNat n = Char.ofNatAux n valid := dif_pos valid
    exact congrArg Char.toNat (here.symm.trans same)
  · have nowhere : Char.ofNat n = Char.ofNat 0 := dif_neg valid
    exact absurd (nowhere.symm.trans same) (by decide)

/-- No character above ASCII is lowered to a separator of paths. -/
theorem apply_lowercaseShifts_ne (above : ¬c.toNat < 0x80) : lowercaseShifts.apply c ≠ '/' := by
  have targets : lowercaseShifts.all fun entry => 0x2f < entry.2.2.2 := by decide +kernel
  unfold ShiftTable.apply
  split
  next first _ _ target found =>
    intro same
    have bound : 0x2f < target := of_decide_eq_true
      (Array.all_eq_true_iff_forall_mem.mp targets _ (Array.mem_of_find?_eq_some found))
    have code := eq_slash_of_ofNat same
    omega
  next =>
    rintro rfl
    exact above (by decide)

theorem toLower_ne_slash (ascii : c.toNat < 0x80) (known : c.isAlphanum) : c.toLower ≠ '/' := by
  have all : ∀ n < 0x80, (Char.ofNat n).isAlphanum → (Char.ofNat n).toLower ≠ '/' := by
    decide +kernel
  have here := all c.toNat ascii
  rw [Char.ofNat_toNat] at here
  exact here known

theorem mem_of_lookup_expansions {codes : List Nat}
    (found : lowercaseExpansions.lookup c.toNat = some codes) :
    (c.toNat, codes) ∈ lowercaseExpansions := by
  obtain ⟨before, after, all, -⟩ := List.lookup_eq_some_iff.mp found
  rw [all]
  exact List.mem_append_right _ (.head _)

theorem slash_notMem_toLowercase (known : isAlphanumeric c) : '/' ∉ toLowercase c := by
  unfold toLowercase
  split
  next ascii =>
    rw [isAlphanumeric, if_pos ascii] at known
    simpa [eq_comm] using toLower_ne_slash ascii known
  next above =>
    split
    next codes found =>
      have expansions : ∀ entry ∈ lowercaseExpansions, 0x2f ∉ entry.2 := by decide
      have free := expansions _ (mem_of_lookup_expansions found)
      intro member
      obtain ⟨code, inside, same⟩ := List.mem_map.mp member
      exact free (eq_slash_of_ofNat same ▸ inside)
    next => simpa [eq_comm] using apply_lowercaseShifts_ne above

theorem slash_notMem_lowerWord (known : ∀ c ∈ word, isAlphanumeric c) : '/' ∉ lowerWord word := by
  fun_induction lowerWord word with
  | case1 => exact List.not_mem_nil
  | case2 => decide
  | case3 c => exact slash_notMem_toLowercase (known c (.head _))
  | case4 c rest _ ih =>
    obtain ⟨here, later⟩ := List.forall_mem_cons.mp known
    rw [List.mem_append, not_or]
    exact ⟨slash_notMem_toLowercase here, ih later⟩

/-- The words of a piece have no other characters than the piece. -/
theorem forall_wordsFrom {p : Char → Prop} {state : WordCase} {piece : List Char}
    (before : ∀ c ∈ others, p c) (later : ∀ c ∈ piece, p c) :
    ∀ word ∈ wordsFrom state others piece, ∀ c ∈ word, p c := by
  fun_induction wordsFrom state others piece with
  | case1 => simp
  | case2 _ others last =>
    simpa [or_imp, forall_and] using And.intro before (List.forall_mem_singleton.mp later)
  | case3 _ others first second rest _ ih =>
    obtain ⟨here, rest⟩ := List.forall_mem_cons.mp later
    refine List.forall_mem_cons.mpr ⟨?_, ih (by simp) rest⟩
    simpa [or_imp, forall_and] using ⟨before, here⟩
  | case4 _ others first second rest _ _ ih =>
    obtain ⟨here, rest⟩ := List.forall_mem_cons.mp later
    exact List.forall_mem_cons.mpr ⟨by simpa using before, ih (by simpa using here) rest⟩
  | case5 _ others first second rest _ _ ih =>
    obtain ⟨here, rest⟩ := List.forall_mem_cons.mp later
    exact ih (List.forall_mem_cons.mpr ⟨here, before⟩) rest

theorem not_cut_of_mem_pieces {cut : Char → Bool} (text : List Char) :
    ∀ piece ∈ pieces cut text, ∀ c ∈ piece, cut c = false := by
  induction text with
  | nil => simp [pieces]
  | cons c rest ih =>
    unfold pieces
    split
    next => exact ih
    next whole =>
      have here : cut c = false := Bool.eq_false_iff.mpr whole
      split
      next => simp [here]
      next =>
        split
        next => exact List.forall_mem_cons.mpr ⟨by simp [here], ih⟩
        next =>
          split
          next => simp [here]
          next word others found =>
            rw [found] at ih
            obtain ⟨first, later⟩ := List.forall_mem_cons.mp ih
            exact List.forall_mem_cons.mpr ⟨List.forall_mem_cons.mpr ⟨here, first⟩, later⟩

theorem eq_or_mem_of_mem_intersperse {part sep : List Char} {parts : List (List Char)}
    (member : part ∈ parts.intersperse sep) : part = sep ∨ part ∈ parts := by
  induction parts with
  | nil => cases member
  | cons first rest ih =>
    cases rest with
    | nil => exact .inr member
    | cons second others =>
      rw [List.intersperse_cons_cons, List.mem_cons, List.mem_cons] at member
      rcases member with rfl | rfl | later
      · exact .inr (.head _)
      · exact .inl rfl
      · exact (ih later).imp_right (.tail first)

/-- The words of a name, before they are lowered. -/
def words (text : String) : List (List Char) :=
  (pieces (fun c => !isAlphanumeric c) text.toList).flatMap (wordsFrom .none [])

def joined (words : List (List Char)) : List Char :=
  ((words.map lowerWord).intersperse ['_']).flatten

theorem snakeCase_eq (text : String) : snakeCase text = String.ofList (joined (words text)) := rfl

/-- A name in snake case is no path with folders. -/
theorem slash_notMem_snakeCase (text : String) : '/' ∉ (snakeCase text).toList := by
  rw [snakeCase_eq, String.toList_ofList, joined]
  intro member
  obtain ⟨part, among, inside⟩ := List.mem_flatten.mp member
  rcases eq_or_mem_of_mem_intersperse among with rfl | lowered
  · exact absurd inside (by decide)
  · obtain ⟨word, found, rfl⟩ := List.mem_map.mp lowered
    obtain ⟨piece, cut, words⟩ := List.mem_flatMap.mp found
    refine slash_notMem_lowerWord (forall_wordsFrom (by simp) ?_ word words) inside
    intro c within
    simpa using not_cut_of_mem_pieces _ piece cut c within

theorem toLowercase_ne_nil (c : Char) : toLowercase c ≠ [] := by
  unfold toLowercase
  split
  next => exact List.cons_ne_nil _ _
  next =>
    split
    next codes found =>
      have expansions : ∀ entry ∈ lowercaseExpansions, entry.2 ≠ [] := by decide
      simpa using expansions _ (mem_of_lookup_expansions found)
    next => exact List.cons_ne_nil _ _

theorem lowerWord_ne_nil (longer : word ≠ []) : lowerWord word ≠ [] := by
  fun_induction lowerWord word with
  | case1 => exact longer
  | case2 => exact List.cons_ne_nil _ _
  | case3 c => exact toLowercase_ne_nil c
  | case4 c rest => exact List.append_ne_nil_of_left_ne_nil (toLowercase_ne_nil c) _

/-- No word is empty. A word that is in upper case has begun. -/
theorem ne_nil_of_mem_wordsFrom {state : WordCase} {piece : List Char}
    (begun : state = .upper → others ≠ []) : ∀ word ∈ wordsFrom state others piece, word ≠ [] := by
  fun_induction wordsFrom state others piece with
  | case1 => simp
  | case2 => simp
  | case3 _ others first second rest _ ih =>
    exact List.forall_mem_cons.mpr ⟨by simp, ih nofun⟩
  | case4 _ others first second rest _ upper ih =>
    simp only [Bool.and_eq_true, beq_iff_eq] at upper
    exact List.forall_mem_cons.mpr ⟨by simpa using begun upper.1.1, ih nofun⟩
  | case5 _ others first second rest _ _ ih => exact ih fun _ => List.cons_ne_nil _ _

theorem joined_cons (first : List Char) (rest : List (List Char)) :
    joined (first :: rest) =
      lowerWord first ++ if rest = [] then [] else '_' :: joined rest := by
  cases rest <;> simp [joined]

theorem joined_eq_nil_iff (text : String) : joined (words text) = [] ↔ words text = [] := by
  constructor
  · intro nothing
    cases all : words text with
    | nil => rfl
    | cons first rest =>
      have member : first ∈ words text := all ▸ List.mem_cons_self
      obtain ⟨piece, -, inside⟩ := List.mem_flatMap.mp member
      rw [all, joined_cons, List.append_eq_nil_iff] at nothing
      exact absurd nothing.1 (lowerWord_ne_nil (ne_nil_of_mem_wordsFrom (by simp) first inside))
  · intro nothing
    rw [nothing]
    rfl

theorem words_raw (name : String) : words ("r#" ++ name) = ['r'] :: words name := by
  have all : ("r#" ++ name).toList = 'r' :: '#' :: name.toList := by simp
  have letter : isAlphanumeric 'r' := by decide
  have mark : isAlphanumeric '#' = false := by decide
  rw [words, all]
  simp [pieces, letter, mark, wordsFrom, words]

/-- Raw names have the same stems if they are the same without the mark. -/
theorem snakeCase_raw {a b : String} (same : snakeCase a = snakeCase b) :
    snakeCase ("r#" ++ a) = snakeCase ("r#" ++ b) := by
  have same := congrArg String.toList same
  simp only [snakeCase_eq, String.toList_ofList] at same
  have empty : words a = [] ↔ words b = [] := by
    rw [← joined_eq_nil_iff, same, joined_eq_nil_iff]
  rw [snakeCase_eq, snakeCase_eq, words_raw, words_raw, joined_cons, joined_cons, same]
  -- Only a name that has words has a low line behind the mark.
  simp only [empty]

end Text

namespace Target

variable {target : Target} {a b : GeneratedUnit}

def place (target : Target) (unit : GeneratedUnit) : List String :=
  target.folders unit.placement ++ [fileName unit]

theorem slash_notMem_place {name : String} (member : name ∈ target.place a) :
    '/' ∉ name.toList := by
  rcases List.mem_append.mp member with folder | file
  · obtain ⟨stem, -⟩ := List.mem_filter.mp folder
    cases placed : a.placement with
    | entity module =>
      rw [placed] at stem
      obtain ⟨_, -, rfl⟩ := List.mem_map.mp stem
      exact Text.slash_notMem_snakeCase _
    | store =>
      rw [placed] at stem
      obtain rfl := List.mem_singleton.mp stem
      exact Text.slash_notMem_snakeCase _
  · obtain rfl := List.mem_singleton.mp file
    rw [fileName, String.toList_append, List.mem_append, not_or]
    exact ⟨Text.slash_notMem_snakeCase _, by decide⟩

/-- Two files have one path if and only if they have one place. -/
theorem path_inj : target.path a = target.path b ↔ target.place a = target.place b := by
  have split_path (unit : GeneratedUnit) :
      ("/".intercalate (target.place unit)).toList.splitOn '/' =
        (target.place unit).map String.toList := by
    rw [String.toList_intercalate]
    refine List.splitOn_intercalate '/' ?_ ?_
    · intro chars member
      obtain ⟨name, inside, rfl⟩ := List.mem_map.mp member
      exact slash_notMem_place inside
    · simp [place]
  rw [path, path, String.append_right_inj]
  constructor
  · intro same
    have parts := (split_path a).symm.trans ((congrArg _ (congrArg _ same)).trans (split_path b))
    exact (List.map_inj_right fun _ _ => String.toList_inj.mp).mp parts
  · exact congrArg _

end Target
end EntityGen
