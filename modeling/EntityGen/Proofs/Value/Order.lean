import EntityGen.Semantics.Value
import Mathlib.Data.String.Basic

/-! The order of values. Together with `compare_eq_iff` the two facts below make `Value.compare` a
strict order in which any two values that differ can be compared. -/
namespace EntityGen.Value

section Simple

variable {α : Type} [LinearOrder α]

theorem order_lt_iff {a b : α} : order a b = .lt ↔ a < b := by
  unfold order
  split
  next same => simp [same]
  next => split <;> simp [*]

theorem order_gt_iff {a b : α} : order a b = .gt ↔ b < a := by
  unfold order
  split
  next same => simp [same]
  next apart =>
    split
    next before => simp [le_of_lt before]
    next notBefore => simpa using lt_of_le_of_ne (not_lt.mp notBefore) (Ne.symm apart)

end Simple

theorem compare_eq_comm (a b : Value) : compare a b = .eq ↔ compare b a = .eq := by
  rw [compare_eq_iff, compare_eq_iff, eq_comm]

mutual

theorem compare_gt_iff : (a b : Value) → (compare a b = .gt ↔ compare b a = .lt)
  | null, b => by cases b <;> simp [compare, order, rank]
  | bool a, b => by cases b <;> simp [compare, order_gt_iff, order_lt_iff, rank]
  | int a, b => by cases b <;> simp [compare, order_gt_iff, order_lt_iff, rank]
  | text a, b => by cases b <;> simp [compare, order_gt_iff, order_lt_iff, rank]
  | pair a b, c => by
    cases c with
    | pair c d =>
      have first := compare_gt_iff a c
      have second := compare_gt_iff b d
      simp only [compare, Ordering.then_eq_gt, Ordering.then_eq_lt, first, second,
        compare_eq_comm a c]
    | _ => simp [compare, order, rank]
  | seq a, b => by
    cases b with
    | seq b => simpa [compare] using compareAll_gt_iff a b
    | _ => simp [compare, order, rank]

theorem compareAll_gt_iff : (a b : List Value) → (compareAll a b = .gt ↔ compareAll b a = .lt)
  | [], b => by cases b <;> simp [compareAll]
  | a :: as, [] => by simp [compareAll]
  | a :: as, b :: bs => by
    have first := compare_gt_iff a b
    have rest := compareAll_gt_iff as bs
    simp only [compareAll, Ordering.then_eq_gt, Ordering.then_eq_lt, first, rest,
      compare_eq_comm a b]

end

/-- The step of a comparison part by part. -/
theorem then_lt_trans {a b c : Value} {ab' bc' ac' : Ordering}
    (first : compare a b = .lt → compare b c = .lt → compare a c = .lt)
    (rest : ab' = .lt → bc' = .lt → ac' = .lt)
    (ab : (compare a b).then ab' = .lt) (bc : (compare b c).then bc' = .lt) :
    (compare a c).then ac' = .lt := by
  rw [Ordering.then_eq_lt] at ab bc ⊢
  rcases ab with ab | ⟨ab, abRest⟩ <;> rcases bc with bc | ⟨bc, bcRest⟩
  · exact .inl (first ab bc)
  · exact .inl ((compare_eq_iff b c).mp bc ▸ ab)
  · exact .inl ((compare_eq_iff a b).mp ab ▸ bc)
  · exact .inr ⟨(compare_eq_iff a b).mp ab ▸ bc, rest abRest bcRest⟩

mutual

theorem compare_lt_trans : (a b c : Value) → compare a b = .lt → compare b c = .lt →
    compare a c = .lt
  | null, b, c, ab, bc => by
    cases b <;> cases c <;> simp_all [compare, order_lt_iff, rank]
  | bool a, b, c, ab, bc => by
    cases b <;> cases c <;> simp_all only [compare, order_lt_iff, rank]
    all_goals first | exact lt_trans ab bc | omega
  | int a, b, c, ab, bc => by
    cases b <;> cases c <;> simp_all only [compare, order_lt_iff, rank]
    all_goals first | exact lt_trans ab bc | omega
  | text a, b, c, ab, bc => by
    cases b <;> cases c <;> simp_all only [compare, order_lt_iff, rank]
    all_goals first | exact lt_trans ab bc | omega
  | pair a b, c, e, ab, bc => by
    cases c <;> cases e <;> simp_all only [compare, order_lt_iff, rank]
    all_goals first
      | exact then_lt_trans (compare_lt_trans _ _ _) (compare_lt_trans _ _ _) ab bc
      | omega
  | seq a, b, c, ab, bc => by
    cases b <;> cases c <;> simp_all only [compare, order_lt_iff, rank]
    all_goals first | exact compareAll_lt_trans _ _ _ ab bc | omega

theorem compareAll_lt_trans : (a b c : List Value) → compareAll a b = .lt →
    compareAll b c = .lt → compareAll a c = .lt
  | [], b, c, ab, bc => by
    cases b <;> cases c <;> simp_all [compareAll]
  | a :: as, [], c, ab, bc => by simp [compareAll] at ab
  | a :: as, b :: bs, [], ab, bc => by simp [compareAll] at bc
  | a :: as, b :: bs, c :: cs, ab, bc =>
    then_lt_trans (compare_lt_trans a b c) (compareAll_lt_trans as bs cs) ab bc

end

end EntityGen.Value
