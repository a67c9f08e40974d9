import EntityGen.Naming
import Mathlib.Data.List.TakeWhile

/-! The names of local variables in generated methods. Each belongs to a family: those that are
numbered to that of their letters, and those that are made from the name of a property to a family
of their own, since an underscore stands in them. Names of different families are different. -/
namespace EntityGen.Naming

/-- What a name without an underscore begins with before its first digit. -/
def family (name : String) : List Char :=
  if '_' ∈ name.toList then [] else name.toList.takeWhile fun c => !c.isDigit

theorem ne_of_family {a b : String} (apart : family a ≠ family b) : a ≠ b :=
  fun same => apart (congrArg family same)

theorem isDigit_of_mem_toString {n : Nat} {c : Char} (member : c ∈ (toString n).toList) :
    c.isDigit = true := by
  rw [Nat.toString_eq_repr, Nat.toList_repr] at member
  exact Nat.isDigit_of_mem_toDigits (by decide) (by decide) member

theorem toString_nat_inj {m n : Nat} : toString m = toString n ↔ m = n := by
  constructor
  · intro same
    have digits : Nat.toDigits 10 m = Nat.toDigits 10 n := by
      simpa only [Nat.toString_eq_repr, Nat.toList_repr] using congrArg String.toList same
    rw [← Nat.ofDigitChars_toDigits (b := 10) (n := m) (by decide) (by decide), digits,
      Nat.ofDigitChars_toDigits (by decide) (by decide)]
  · rintro rfl; rfl

theorem family_numbered (stem : String)
    (letters : (stem.toList.all fun c => !c.isDigit && c != '_') = true) (n : Nat) :
    family (stem ++ toString n) = stem.toList := by
  have letters : ∀ c ∈ stem.toList, c.isDigit = false ∧ c ≠ '_' := by
    simpa only [List.all_eq_true, Bool.and_eq_true, Bool.not_eq_true', bne_iff_ne] using letters
  have noUnderscore : '_' ∉ (stem ++ toString n).toList := by
    rw [String.toList_append, List.mem_append]
    rintro (member | member)
    · exact (letters _ member).2 rfl
    · exact absurd (isDigit_of_mem_toString member) (by decide)
  have digits : ((toString n).toList.takeWhile fun c => !c.isDigit) = [] := by
    rw [List.takeWhile_eq_nil_iff]
    intro nonempty
    simpa using isDigit_of_mem_toString (List.getElem_mem nonempty)
  rw [family, if_neg noUnderscore, String.toList_append,
    List.takeWhile_append_of_pos fun c member => by simp [(letters c member).1], digits,
    List.append_nil]

@[simp] theorem family_itemVar (n : Nat) : family (itemVar n).name = "item".toList :=
  family_numbered "item" (by decide) n

@[simp] theorem family_keyVar (n : Nat) : family (keyVar n).name = "key".toList :=
  family_numbered "key" (by decide) n

@[simp] theorem family_valueVar (n : Nat) : family (valueVar n).name = "value".toList :=
  family_numbered "value" (by decide) n

@[simp] theorem family_nestedCopy (n : Nat) : family (nestedCopy n).name = "copy".toList :=
  family_numbered "copy" (by decide) n

@[simp] theorem family_propertyCopy (x : Ident) : family (propertyCopy x).name = [] :=
  if_pos (by simp [propertyCopy, plain])

@[simp] theorem family_propertyLatest (x : Ident) : family (propertyLatest x).name = [] :=
  if_pos (by simp [propertyLatest, plain])

theorem nestedCopy_inj {m n : Nat} : (nestedCopy m).name = (nestedCopy n).name ↔ m = n :=
  (String.append_right_inj "copy").trans toString_nat_inj

theorem propertyCopy_inj {x y : Ident} :
    (propertyCopy x).name = (propertyCopy y).name ↔ x.name = y.name :=
  String.append_left_inj "_copy"

theorem propertyLatest_inj {x y : Ident} :
    (propertyLatest x).name = (propertyLatest y).name ↔ x.name = y.name :=
  String.append_left_inj "_latest"

/-- A copy and a latest state end differently. -/
theorem propertyCopy_ne_propertyLatest (x y : Ident) :
    (propertyCopy x).name ≠ (propertyLatest y).name := by
  intro same
  have last := congrArg (fun name => name.toList.getLast?) same
  simp [propertyCopy, propertyLatest, plain] at last

def IsLoopVar (x : Ident) : Prop := family x.name ∈ ["item", "key", "value"].map String.toList

theorem isLoopVar_itemVar (n : Nat) : IsLoopVar (itemVar n) := by simp [IsLoopVar]

theorem isLoopVar_keyVar (n : Nat) : IsLoopVar (keyVar n) := by simp [IsLoopVar]

theorem isLoopVar_valueVar (n : Nat) : IsLoopVar (valueVar n) := by simp [IsLoopVar]

theorem valueVar_ne_keyVar (m n : Nat) : (valueVar m).name ≠ (keyVar n).name :=
  ne_of_family (by simp)

theorem IsLoopVar.ne {x : Ident} (isVar : IsLoopVar x)
    (other : family name ∉ ["item", "key", "value"].map String.toList) : x.name ≠ name := by
  intro same
  rw [IsLoopVar, same] at isVar
  exact other isVar

theorem IsLoopVar.family_ne_copy {x : Ident} (isVar : IsLoopVar x) :
    family x.name ≠ "copy".toList := by
  intro same
  rw [IsLoopVar, same] at isVar
  exact absurd isVar (by decide)

/-- A copy of a property, or one of the first `used` numbered copies. -/
def IsCopy (copy : Ident) (used : Nat) : Prop :=
  family copy.name = [] ∨ ∃ i < used, copy = nestedCopy i

theorem isCopy_propertyCopy (x : Ident) (used : Nat) : IsCopy (propertyCopy x) used :=
  .inl (family_propertyCopy x)

theorem isCopy_nestedCopy (n : Nat) : IsCopy (nestedCopy n) (n + 1) :=
  .inr ⟨n, Nat.lt_succ_self n, rfl⟩

theorem IsCopy.ne {copy : Ident} {used : Nat} (isCopy : IsCopy copy used)
    (noProperty : family name ≠ []) (noCopy : family name ≠ "copy".toList) : copy.name ≠ name := by
  apply ne_of_family
  rcases isCopy with family | ⟨i, -, rfl⟩
  · rw [family]; exact noProperty.symm
  · rw [family_nestedCopy]; exact noCopy.symm

theorem IsCopy.ne_loopVar {copy x : Ident} {used : Nat} (isCopy : IsCopy copy used)
    (isVar : IsLoopVar x) : copy.name ≠ x.name := by
  refine isCopy.ne (fun none => ?_) fun isCopy => ?_
  · rw [IsLoopVar, none] at isVar
    exact absurd isVar (by decide)
  · rw [IsLoopVar, isCopy] at isVar
    exact absurd isVar (by decide)

theorem IsCopy.ne_nestedCopy {copy : Ident} {used n : Nat} (isCopy : IsCopy copy used)
    (unused : used ≤ n) : copy.name ≠ (nestedCopy n).name := by
  rcases isCopy with family | ⟨i, below, rfl⟩
  · exact ne_of_family (by rw [family]; simp)
  · exact fun same => Nat.ne_of_lt (Nat.lt_of_lt_of_le below unused) (nestedCopy_inj.mp same)

end EntityGen.Naming
