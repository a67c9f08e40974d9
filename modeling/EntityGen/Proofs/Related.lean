import Mathlib.Data.List.Forall2
import Mathlib.Data.List.Nodup

/-! Options and lists whose elements are related one by one. What is made of related elements in the
same way is related again. -/
namespace EntityGen

variable {α β γ δ : Type} {R : α → β → Prop} {S : γ → δ → Prop}

theorem rel_bind {f : α → Option γ} {g : β → Option δ} {a : Option α} {b : Option β}
    (first : Option.Rel R a b) (next : ∀ x y, R x y → Option.Rel S (f x) (g y)) :
    Option.Rel S (a.bind f) (b.bind g) := by
  cases first with
  | some here => exact next _ _ here
  | none => exact .none

theorem rel_map {f : α → γ} {g : β → δ} {a : Option α} {b : Option β} (first : Option.Rel R a b)
    (next : ∀ x y, R x y → S (f x) (g y)) : Option.Rel S (a.map f) (b.map g) := by
  cases first with
  | some here => exact .some (next _ _ here)
  | none => exact .none

theorem forall₂_zip_of {as : List α} {bs : List β} {cs : List γ} {ds : List δ}
    (first : List.Forall₂ R as bs) (second : List.Forall₂ S cs ds) :
    List.Forall₂ (fun a b => R a.1 b.1 ∧ S a.2 b.2) (as.zip cs) (bs.zip ds) := by
  induction first generalizing cs ds with
  | nil => exact .nil
  | cons here _ ih =>
    cases second with
    | nil => exact .nil
    | cons there later => exact .cons ⟨here, there⟩ (ih later)

theorem map_eq_of_forall₂ {f : α → γ} {g : β → γ} {as : List α} {bs : List β}
    (each : List.Forall₂ R as bs) (same : ∀ a b, R a b → f a = g b) : as.map f = bs.map g := by
  have images := List.rel_map (P := Eq) same each
  rwa [List.forall₂_eq_eq_eq] at images

/-- Two lists have the same images if and only if the elements at each place do. -/
theorem map_eq_map_iff_zip {f : α → γ} {g : β → γ} {as : List α} {bs : List β}
    (length : as.length = bs.length) :
    as.map f = bs.map g ↔ ∀ pair ∈ as.zip bs, f pair.1 = g pair.2 := by
  induction as generalizing bs with
  | nil =>
    obtain rfl := List.length_eq_zero_iff.mp length.symm
    simp
  | cons a as ih =>
    obtain ⟨b, bs, rfl⟩ := List.exists_cons_of_length_eq_add_one length.symm
    simp [ih (Nat.succ_inj.mp length)]

/-- Lists are related if the elements are that have the same image at the same place. -/
theorem forall₂_of_map_eq {f : α → γ} {g : β → γ} {as : List α} {bs : List β}
    (images : as.map f = bs.map g) (related : ∀ a ∈ as, ∀ b ∈ bs, f a = g b → R a b) :
    List.Forall₂ R as bs := by
  have length : as.length = bs.length := by simpa using congrArg List.length images
  refine List.forall₂_iff_zip.mpr ⟨length, fun {a b} member => ?_⟩
  obtain ⟨here, there⟩ := List.of_mem_zip member
  exact related a here b there ((map_eq_map_iff_zip length).mp images _ member)

theorem forall₂_congr_of {P Q : α → β → Prop} {as : List α} {bs : List β}
    (each : List.Forall₂ R as bs) (same : ∀ a b, R a b → (P a b ↔ Q a b)) :
    List.Forall₂ P as bs ↔ List.Forall₂ Q as bs := by
  induction each with
  | nil => exact iff_of_true .nil .nil
  | cons first _ ih => rw [List.forall₂_cons, List.forall₂_cons, same _ _ first, ih]

theorem exists_of_forall₂ {a : α} {as : List α} {bs : List β} (each : List.Forall₂ R as bs)
    (member : a ∈ as) : ∃ b ∈ bs, R a b := by
  induction each with
  | nil => cases member
  | @cons _ b _ bs first _ ih =>
    obtain rfl | later := List.mem_cons.mp member
    · exact ⟨b, List.mem_cons_self, first⟩
    · obtain ⟨other, inside, related⟩ := ih later
      exact ⟨other, List.mem_cons_of_mem b inside, related⟩

/-- Elements with the same key are related, if no two of the second list have one key. -/
theorem rel_of_key {f : α → γ} {g : β → γ} {a : α} {b : β} {as : List α} {bs : List β}
    (each : List.Forall₂ R as bs) (keys : ∀ a b, R a b → f a = g b) (distinct : (bs.map g).Nodup)
    (here : a ∈ as) (there : b ∈ bs) (same : f a = g b) : R a b := by
  obtain ⟨other, member, related⟩ := exists_of_forall₂ each here
  obtain rfl : other = b :=
    List.inj_on_of_nodup_map distinct member there ((keys a other related).symm.trans same)
  exact related

end EntityGen
