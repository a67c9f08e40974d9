import EntityGen.Round.Diagnostic

/-! What is left of the reports of a round: the first one of each kind and message. -/
namespace EntityGen

namespace Diagnostic

variable {a b c diagnostic : Diagnostic} {diagnostics : List Diagnostic}

theorem repeats_iff : a.repeats b ↔ a.kind = b.kind ∧ a.message = b.message := by
  simp [repeats]

theorem repeats_comm : a.repeats b = b.repeats a := by
  rw [repeats, repeats, BEq.comm, @BEq.comm _ _ _ a.message]

theorem repeats_of_repeats (same : a.repeats b) : a.repeats c = b.repeats c := by
  obtain ⟨kind, message⟩ := repeats_iff.mp same
  rw [repeats, repeats, kind, message]

def firsts : List Diagnostic → List Diagnostic
  | [] => []
  | first :: rest => first :: (firsts rest).filter fun later => !first.repeats later

theorem any_firsts (diagnostics : List Diagnostic) (diagnostic : Diagnostic) :
    (firsts diagnostics).any diagnostic.repeats = diagnostics.any diagnostic.repeats := by
  induction diagnostics with
  | nil => rfl
  | cons first rest ih =>
    rw [firsts, List.any_cons, List.any_cons, ← ih, List.any_filter]
    by_cases same : diagnostic.repeats first
    · simp [same]
    · -- What the first one hides does not say what the report says.
      refine congrArg _ (List.any_congr rfl fun later => ?_)
      by_cases hidden : first.repeats later
      · have apart : diagnostic.repeats later = diagnostic.repeats first := by
          rw [repeats_comm, ← repeats_of_repeats hidden, repeats_comm]
        simp [apart, same]
      · simp [hidden]

theorem firsts_append_singleton (diagnostics : List Diagnostic) (last : Diagnostic) :
    firsts (diagnostics ++ [last]) =
      firsts diagnostics ++ if diagnostics.any last.repeats then [] else [last] := by
  induction diagnostics with
  | nil => rfl
  | cons first rest ih =>
    rw [List.cons_append, firsts, ih, firsts, List.filter_append, List.any_cons, repeats_comm]
    by_cases same : first.repeats last <;> by_cases before : rest.any last.repeats <;>
      simp [same, before]

/-- A report is left out only if one that says the same is left. -/
theorem exists_repeats_of_mem (member : diagnostic ∈ diagnostics) :
    ∃ first ∈ firsts diagnostics, diagnostic.repeats first := by
  rw [← List.any_eq_true, any_firsts, List.any_eq_true]
  exact ⟨diagnostic, member, repeats_iff.mpr ⟨rfl, rfl⟩⟩

end Diagnostic

namespace Reports

open Diagnostic

variable {reports : Reports} {earlier : List Diagnostic}

theorem diagnostics_add (kept : reports.diagnostics = firsts earlier) (diagnostic : Diagnostic) :
    (reports.add diagnostic).diagnostics = firsts (earlier ++ [diagnostic]) := by
  rw [firsts_append_singleton, add, kept, any_firsts]
  split <;> simp [kept]

theorem diagnostics_addAll (kept : reports.diagnostics = firsts earlier)
    (diagnostics : List Diagnostic) :
    (reports.addAll diagnostics).diagnostics = firsts (earlier ++ diagnostics) := by
  induction diagnostics generalizing reports earlier with
  | nil => rwa [List.append_nil]
  | cons first rest ih =>
    rw [List.append_cons]
    exact ih (diagnostics_add kept first)

theorem diagnostics_addClash (kept : reports.diagnostics = firsts earlier) (clash : Clash) :
    (reports.addClash clash).diagnostics = firsts (earlier ++ [.clash clash]) := by
  rw [addClash]
  refine diagnostics_add ?_ (.clash clash)
  exact kept

end Reports
end EntityGen
