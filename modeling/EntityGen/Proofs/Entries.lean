/-! Lists of entries, each of which is found by its key. -/
namespace EntityGen

variable {α κ : Type} [BEq κ] [LawfulBEq κ]

/-- Without the entries of one key the others are found as before. -/
theorem find?_filter_ne (entries : List (κ × α)) (gone key : κ) :
    (entries.filter fun (other, _) => other != gone).find? (fun (other, _) => other == key) =
      if key == gone then none else entries.find? fun (other, _) => other == key := by
  rw [List.find?_filter]
  by_cases same : key = gone
  · simp [same]
  · rw [if_neg (by simpa using same)]
    congr 1
    funext entry
    by_cases here : entry.1 = key
    · simp [here, same]
    · simp [here]

/-- A new entry takes the place of those of its key. -/
theorem find?_filter_ne_append (entries : List (κ × α)) (new : κ × α) (key : κ) :
    ((entries.filter fun (other, _) => other != new.1) ++ [new]).find?
        (fun (other, _) => other == key) =
      if key == new.1 then some new else entries.find? fun (other, _) => other == key := by
  rw [List.find?_append, find?_filter_ne]
  by_cases same : key = new.1
  · simp [same]
  · rw [if_neg (by simpa using same), if_neg (by simpa using same)]
    simp [Ne.symm same]

end EntityGen
