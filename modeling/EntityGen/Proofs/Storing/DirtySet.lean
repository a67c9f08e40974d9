import EntityGen.Semantics.Extraction
import Mathlib.Data.List.Induction

/-! Dirty sets as sets of entities. That entities are looked for by type and id makes no
difference, since entities that are equal have the same of both. -/
namespace EntityGen.DirtySet

variable {schema : Schema} {set : DirtySet} {entity other : EntityValue}

theorem insert_eq : insert schema set entity = if entity ∈ set then set else set ++ [entity] := by
  have found : (set.any fun other => schema.slot other == schema.slot entity && other == entity)
      = true ↔ entity ∈ set := by
    rw [List.any_eq_true]
    constructor
    · rintro ⟨other, member, same⟩
      obtain rfl : other = entity := by simpa using (Bool.and_eq_true_iff.mp same).2
      exact member
    · exact fun member => ⟨entity, member, by simp⟩
  rw [insert]
  exact if_congr found rfl rfl

theorem mem_insert : other ∈ insert schema set entity ↔ other ∈ set ∨ other = entity := by
  rw [insert_eq]
  split
  next member =>
    exact ⟨.inl, fun h => h.elim id fun same => same ▸ member⟩
  next => simp

theorem nodup_insert (distinct : set.Nodup) : (insert schema set entity).Nodup := by
  rw [insert_eq]
  split
  next => exact distinct
  next fresh =>
    refine List.nodup_append.mpr ⟨distinct, by simp, ?_⟩
    intro a member b single same
    obtain rfl := List.mem_singleton.mp single
    exact fresh (same ▸ member)

theorem mem_merge {added : DirtySet} :
    entity ∈ merge schema set added ↔ entity ∈ set ∨ entity ∈ added := by
  induction added generalizing set with
  | nil => simp [merge]
  | cons first rest ih =>
    have step : entity ∈ merge schema (insert schema set first) rest ↔
        entity ∈ insert schema set first ∨ entity ∈ rest := ih
    rw [mem_insert, or_assoc] at step
    simpa [merge] using step

theorem nodup_merge {added : DirtySet} (distinct : set.Nodup) :
    (merge schema set added).Nodup := by
  induction added generalizing set with
  | nil => exact distinct
  | cons first rest ih => exact ih (nodup_insert distinct)

theorem merge_append (a b : DirtySet) :
    merge schema set (a ++ b) = merge schema (merge schema set a) b := by
  simp [merge]

theorem merge_singleton : merge schema set [entity] = insert schema set entity := rfl

/-- A set may be merged as the list that it was made of. -/
theorem merge_merge_nil (added : DirtySet) :
    merge schema set (merge schema [] added) = merge schema set added := by
  induction added using List.reverseRecOn with
  | nil => rfl
  | append_singleton init last ih =>
    rw [merge_append, merge_append, merge_singleton, merge_singleton, insert_eq]
    split
    next known =>
      have member : last ∈ merge schema set init :=
        mem_merge.mpr (.inr (by simpa [mem_merge] using known))
      rw [ih, insert_eq, if_pos member]
    next => rw [merge_append, ih, merge_singleton]

end EntityGen.DirtySet
