import EntityGen.Semantics.Schema

/-! What an order of iteration can do: it permutes what belongs to the entries of a map, in the
same way whatever that is. -/
namespace EntityGen.Iteration

variable {α β : Type}

theorem arrange_perm (iteration : Iteration) (kind : MapKind) (entries : List Value)
    (results : List α) (lengths : results.length ≤ entries.length) :
    (iteration.arrange kind entries results).Perm results := by
  cases kind with
  | btreeMap => exact .refl _
  | hashMap =>
    have sorted := (List.mergeSort_perm ((entries.map (iteration [])).zip results)
      fun a b => decide (a.1 ≤ b.1)).map Prod.snd
    rwa [List.map_snd_zip (by simpa using lengths)] at sorted

theorem mem_of_mem_arrange (iteration : Iteration) (kind : MapKind) (entries : List Value)
    (results : List α) {result : α} (member : result ∈ iteration.arrange kind entries results) :
    result ∈ results := by
  cases kind with
  | btreeMap => exact member
  | hashMap =>
    obtain ⟨⟨rank, found⟩,inside,rfl⟩ := List.mem_map.mp member
    exact (List.of_mem_zip (List.mem_mergeSort.mp inside)).2

theorem arrange_map (iteration : Iteration) (kind : MapKind) (entries : List Value)
    (f : α → β) (results : List α) :
    iteration.arrange kind entries (results.map f) =
      (iteration.arrange kind entries results).map f := by
  cases kind with
  | btreeMap => rfl
  | hashMap =>
    simp only [arrange, List.zip_map_right, List.map_map]
    rw [← List.map_mergeSort (r := fun a b => decide (a.1 ≤ b.1)) (by simp), List.map_map]
    rfl

end EntityGen.Iteration
