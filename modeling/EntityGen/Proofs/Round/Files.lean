import EntityGen.Proofs.Entries
import EntityGen.Proofs.Round.Offers
import EntityGen.Proofs.Round.Paths
import Mathlib.Data.List.Induction

/-! The files that a round leaves. Writing a file makes no other file go, so that the file of a unit
stays unless a later unit has the same place. -/
namespace EntityGen

namespace Folder

variable {folder next : Folder} {key folders : List String} {name : String}
  {entry : FolderEntry} {content : Content}

theorem find?_set (folder : Folder) (path key : List String) (entry : FolderEntry) :
    (folder.set path entry).find? key = if key = path then some entry else folder.find? key := by
  unfold set find?
  rw [find?_filter_ne_append _ (path, entry)]
  by_cases same : key = path <;> simp [same]

/-- Folders are made only where nothing stands. -/
theorem find?_makeFolders (found : folder.find? key = some entry) (done todo : List String) :
    (makeFolders folder done todo).1.find? key = some entry := by
  fun_induction makeFolders folder done todo with
  | case1 => exact found
  | case2 => exact found
  | case3 folder _ _ _ _ _ _ ih => exact ih found
  | case4 => exact found
  | case5 folder done name todo _ path free ih =>
    refine ih ?_
    rw [find?_set, if_neg, found]
    rintro rfl
    rw [found] at free
    cases free

/-- A file that was written is there, and what stood elsewhere still stands. -/
theorem of_write (written : folder.write folders name content = (next, none)) :
    next.find? (folders ++ [name]) = some (.file content) ∧
      ∀ key entry, key ≠ folders ++ [name] → folder.find? key = some entry →
        next.find? key = some entry := by
  unfold write at written
  split at written
  next => cases written
  next made all =>
    split at written
    next => cases written
    next =>
      split at written
      next => cases written
      next =>
        obtain ⟨rfl, -⟩ := Prod.mk.inj written
        refine ⟨by rw [find?_set, if_pos rfl], fun key entry other found => ?_⟩
        rw [find?_set, if_neg other]
        have kept := find?_makeFolders found [] folders
        rwa [all] at kept

end Folder

namespace Target

variable {target : Target} {unit : GeneratedUnit} {units : List GeneratedUnit}
  {start written next : Written} {record : Record}

structure Accepts (target : Target) (unit : GeneratedUnit) (written next : Written)
    (content : Content) : Prop where
  rendered : target.render unit = .ok content
  paths : next.paths = written.paths ++ [target.path unit]
  here : next.folder.find? (target.place unit) = some (.file content)
  elsewhere : ∀ key entry, key ≠ target.place unit → written.folder.find? key = some entry →
    next.folder.find? key = some entry

theorem exists_accepts (accepted : target.sink unit written = (next, none)) :
    ∃ content, target.Accepts unit written next content := by
  unfold sink at accepted
  split at accepted
  next => cases accepted
  next content rendered =>
    split at accepted
    next => cases accepted
    next folder done =>
      obtain ⟨rfl, -⟩ := Prod.mk.inj accepted
      obtain ⟨here, elsewhere⟩ := Folder.of_write done
      exact ⟨content, rendered, rfl, here, elsewhere⟩

/-- What units have left that were accepted one after the other. -/
structure Leaves (target : Target) (units : List GeneratedUnit) (start written : Written) :
    Prop where
  paths : written.paths = start.paths ++ units.map target.path
  /-- The file of a unit stays, if no later unit has its place. -/
  files : ∀ before unit after, units = before ++ unit :: after →
    (∀ later ∈ after, target.place later ≠ target.place unit) →
    ∃ content, target.render unit = .ok content ∧
      written.folder.find? (target.place unit) = some (.file content)

theorem Leaves.accept {content : Content} (leaves : target.Leaves units start written)
    (accepts : target.Accepts unit written next content) :
    target.Leaves (units ++ [unit]) start next := by
  refine ⟨by rw [accepts.paths, leaves.paths, List.map_append, List.append_assoc]; rfl, ?_⟩
  intro before earlier after all apart
  -- The new unit is the one that is asked for, or the last of those behind it.
  rcases List.eq_nil_or_concat after with rfl | ⟨rest, last, rfl⟩
  · obtain ⟨rfl, same⟩ := List.append_inj' all rfl
    obtain rfl := List.head_eq_of_cons_eq same
    exact ⟨content, accepts.rendered, accepts.here⟩
  · rw [List.concat_eq_append, ← List.cons_append, ← List.append_assoc] at all
    obtain ⟨rfl, same⟩ := List.append_inj' all rfl
    obtain rfl := List.head_eq_of_cons_eq same
    rw [List.concat_eq_append, List.forall_mem_append, List.forall_mem_singleton] at apart
    obtain ⟨content, rendered, found⟩ := leaves.files before earlier rest rfl apart.1
    exact ⟨content, rendered, accepts.elsewhere _ _ (Ne.symm apart.2) found⟩

/-- A round that accepts all units leaves the file of each that has a place of its own. -/
theorem leaves_offered (units : List GeneratedUnit)
    (done : Round.offered target.sink.recorded (start, []) units = (written, record))
    (accepted : ∀ offer ∈ record, offer.2 = none) :
    record = units.map (fun unit => (unit, none)) ∧ target.Leaves units start written := by
  induction units using List.reverseRecOn generalizing written record with
  | nil =>
    obtain ⟨rfl, rfl⟩ := Prod.mk.inj done
    exact ⟨rfl, by simp, by simp⟩
  | append_singleton units last ih =>
    rcases before : Round.offered target.sink.recorded (start, []) units with ⟨reached, earlier⟩
    rcases answered : target.sink last reached with ⟨next, answer⟩
    have step : Round.offered target.sink.recorded (start, []) (units ++ [last]) =
        (next, earlier ++ [(last, answer)]) := by
      rw [Round.offered, List.foldl_append, List.foldl_cons, List.foldl_nil]
      change (target.sink.recorded last (Round.offered _ _ units)).1 = _
      rw [before, Sink.recorded_eq answered]
    obtain ⟨rfl, rfl⟩ := Prod.mk.inj (step.symm.trans done)
    obtain ⟨first, rfl⟩ : (∀ offer ∈ earlier, offer.2 = none) ∧ answer = none := by
      simpa [or_imp, forall_and] using accepted
    obtain ⟨rfl, leaves⟩ := ih before first
    obtain ⟨content, accepts⟩ := exists_accepts answered
    exact ⟨by simp, leaves.accept accepts⟩

end Target
end EntityGen
