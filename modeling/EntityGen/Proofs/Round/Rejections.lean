import EntityGen.Proofs.Round.Declared

/-! What a round says of rejected declarations. Of errors of one kind with one message the first is
reported, with its place and the name of its spec, and it stands for the others. -/
namespace EntityGen

namespace Diagnostic

variable {diagnostic first : Diagnostic} {diagnostics others : List Diagnostic}

theorem repeats_self (diagnostic : Diagnostic) : diagnostic.repeats diagnostic :=
  repeats_iff.mpr ⟨rfl, rfl⟩

/-- A report is left if no other one before it says the same. -/
theorem mem_firsts_iff :
    diagnostic ∈ firsts diagnostics ↔ diagnostics.find? diagnostic.repeats = some diagnostic := by
  induction diagnostics with
  | nil => simp [firsts]
  | cons first rest ih =>
    rw [firsts, List.mem_cons, List.mem_filter, ih, List.find?_cons, repeats_comm]
    by_cases same : diagnostic.repeats first
    · simp [same, eq_comm]
    · have other : diagnostic ≠ first := fun here => same (here ▸ repeats_self diagnostic)
      simp [same, other]

theorem firsts_append (diagnostics others : List Diagnostic) :
    firsts (diagnostics ++ others) = firsts diagnostics ++
      (firsts others).filter fun later => !diagnostics.any fun first => first.repeats later := by
  induction diagnostics with
  | nil => simp [firsts]
  | cons first rest ih =>
    rw [List.cons_append, firsts, ih, firsts, List.filter_append, List.filter_filter,
      List.cons_append]
    simp

theorem firsts_sublist (diagnostics : List Diagnostic) :
    (firsts diagnostics).Sublist diagnostics := by
  induction diagnostics with
  | nil => exact .slnil
  | cons first rest ih => exact (List.filter_sublist.trans ih).cons_cons first

/-- All reports are left if and only if no two say the same. -/
theorem firsts_eq_self_iff :
    firsts diagnostics = diagnostics ↔ diagnostics.Pairwise fun a b => ¬a.repeats b := by
  induction diagnostics with
  | nil => simp [firsts]
  | cons first rest ih =>
    rw [firsts, List.pairwise_cons, ← ih, List.cons_inj_right]
    constructor
    · intro all
      have bound : rest.length ≤ (firsts rest).length := by
        rw [← congrArg List.length all]
        exact List.length_filter_le ..
      have kept : firsts rest = rest := (firsts_sublist rest).eq_of_length_le bound
      rw [kept, List.filter_eq_self] at all
      exact ⟨by simpa using all, kept⟩
    · rintro ⟨apart, kept⟩
      rw [kept, List.filter_eq_self]
      simpa using apart

def error? : Diagnostic → Option SpecError
  | spec error => some error
  | clash _ | refused _ _ => none

structure Tells (diagnostic : Diagnostic) (error : SpecError) : Prop where
  kind : diagnostic.kind = (Diagnostic.spec error).kind
  spec : diagnostic.specName? = some error.spec
  message : diagnostic.message = error.message
  pos : diagnostic.pos = error.pos

/-- A report that is not about a declaration does not say what one says that is. -/
theorem repeats_of_error?_eq_none {error : SpecError} (other : diagnostic.error? = none) :
    (Diagnostic.spec error).repeats diagnostic = false := by
  rw [Bool.eq_false_iff]
  intro same
  have kind := (repeats_iff.mp same).1
  obtain ⟨_, fault, _⟩ := error
  cases diagnostic with
  | spec => cases other
  | clash => cases fault <;> cases kind
  | refused => cases fault <;> cases kind

theorem tells_iff {error : SpecError} : diagnostic.Tells error ↔
    ∃ other, diagnostic = .spec other ∧ (Diagnostic.spec error).repeats diagnostic ∧
      other.spec = error.spec ∧ other.pos = error.pos := by
  constructor
  · rintro ⟨kind, named, message, placed⟩
    have same := repeats_iff.mpr ⟨kind.symm, message.symm⟩
    cases about : diagnostic.error? with
    | none => exact absurd same (Bool.eq_false_iff.mp (repeats_of_error?_eq_none about))
    | some other =>
      cases diagnostic with
      | spec => exact ⟨_, rfl, same, Option.some.inj named, placed⟩
      | clash => cases about
      | refused => cases about
  · rintro ⟨other, rfl, same, named, placed⟩
    obtain ⟨kind, message⟩ := repeats_iff.mp same
    exact ⟨kind.symm, congrArg some named, message.symm, placed⟩

end Diagnostic

namespace Round

open Diagnostic

variable {σ : Type} {settings : Settings} {items : List Item} {sink : Sink σ} {start : σ}
  {round : Round σ} {diagnostics : List Diagnostic} {others : List Diagnostic}

def rejectedReports (items : List Item) : List Diagnostic :=
  ((rejections items).map Prod.snd).map .spec

def firstAlike? (items : List Item) (rejection : Site × SpecError) : Option (Site × SpecError) :=
  (rejections items).find? fun other => (Diagnostic.spec rejection.2).repeats (.spec other.2)

/-- What reports tell of the declarations that are rejected. -/
structure TellsOf (diagnostics : List Diagnostic) (items : List Item) : Prop where
  /-- Of each of them there is a report with the kind and the message of its error. -/
  said : ∀ rejection ∈ rejections items, ∃ diagnostic ∈ diagnostics,
    diagnostic.kind = (Diagnostic.spec rejection.2).kind ∧
      diagnostic.message = rejection.2.message
  /-- It has the name and the place as well if the first rejection that is alike has them. -/
  told : ∀ rejection ∈ rejections items,
    ((∃ diagnostic ∈ diagnostics, diagnostic.Tells rejection.2) ↔
      ∃ first, firstAlike? items rejection = some first ∧
        first.2.spec = rejection.2.spec ∧ first.2.pos = rejection.2.pos)
  /-- Each of them has a report of its own if and only if no two are alike. -/
  own : (diagnostics.filter fun diagnostic => diagnostic.error?.isSome) = rejectedReports items ↔
    (rejections items).Pairwise fun a b => ¬(Diagnostic.spec a.2).repeats (.spec b.2)

theorem exists_reports_eq (run : Round.run settings items sink start = .ok round) :
    ∃ others : List Diagnostic, (∀ diagnostic ∈ others, diagnostic.error? = none) ∧
      round.reports.diagnostics = firsts (rejectedReports items ++ others) := by
  obtain ⟨_, record, -, -, completed⟩ := exists_completed_of_run run
  have errors : found settings items =
      rejectedReports items ++ (storeClash? settings items).toList.map .clash := by
    rw [rejectedReports, map_snd_rejections]
    rfl
  refine ⟨(storeClash? settings items).toList.map .clash ++
    (record.filterMap (refused? (entitiesOf items)) ++ (unplanned settings items).map .clash),
    ?_, ?_⟩
  · intro diagnostic member
    simp only [List.mem_append, List.mem_map, List.mem_filterMap, refused?] at member
    rcases member with ⟨_, -, rfl⟩ | ⟨_, -, refused⟩ | ⟨_, -, rfl⟩
    · rfl
    · obtain ⟨_, -, rfl⟩ := Option.map_eq_some_iff.mp refused
      rfl
    · rfl
  · rw [completed.diagnostics, errors]
    simp

theorem find?_reports (rejection : Site × SpecError) :
    (rejectedReports items).find? (Diagnostic.spec rejection.2).repeats =
      (firstAlike? items rejection).map fun first => .spec first.2 := by
  rw [rejectedReports, List.map_map, List.find?_map]
  rfl

theorem mem_rejectedReports {rejection : Site × SpecError} (member : rejection ∈ rejections items) :
    .spec rejection.2 ∈ rejectedReports items :=
  List.mem_map_of_mem (List.mem_map_of_mem member)

/-- The reports of rejected declarations stand before the others, and hide none of them. -/
theorem filter_firsts (plain : ∀ diagnostic ∈ others, diagnostic.error? = none) :
    (firsts (rejectedReports items ++ others)).filter (fun diagnostic => diagnostic.error?.isSome) =
      firsts (rejectedReports items) := by
  rw [firsts_append, List.filter_append, List.filter_eq_self.mpr, List.filter_eq_nil_iff.mpr,
    List.append_nil]
  · intro diagnostic member
    have inside := (firsts_sublist others).subset (List.mem_filter.mp member).1
    simp [plain diagnostic inside]
  · intro diagnostic member
    obtain ⟨_, -, rfl⟩ := List.mem_map.mp ((firsts_sublist _).subset member)
    rfl

theorem told_iff {rejection : Site × SpecError} (member : rejection ∈ rejections items)
    (others : List Diagnostic) :
    (∃ diagnostic ∈ firsts (rejectedReports items ++ others), diagnostic.Tells rejection.2) ↔
      ∃ first, firstAlike? items rejection = some first ∧
        first.2.spec = rejection.2.spec ∧ first.2.pos = rejection.2.pos := by
  obtain ⟨first, found⟩ : ∃ first, firstAlike? items rejection = some first :=
    Option.isSome_iff_exists.mp (List.find?_isSome.mpr ⟨rejection, member, repeats_self _⟩)
  have kept : (rejectedReports items ++ others).find? (Diagnostic.spec rejection.2).repeats =
      some (.spec first.2) := by
    rw [List.find?_append, find?_reports, found]
    rfl
  -- What repeats the report of the rejection repeats whatever says the same.
  have alike {diagnostic : Diagnostic} (same : (Diagnostic.spec rejection.2).repeats diagnostic) :
      (Diagnostic.spec rejection.2).repeats = diagnostic.repeats :=
    funext fun _ => repeats_of_repeats same
  constructor
  · rintro ⟨diagnostic, left, tells⟩
    obtain ⟨other, rfl, same, named, placed⟩ := tells_iff.mp tells
    rw [mem_firsts_iff, ← alike same, kept] at left
    obtain rfl := Diagnostic.spec.inj (Option.some.inj left)
    exact ⟨first, found, named, placed⟩
  · rintro ⟨_, again, named, placed⟩
    obtain rfl := Option.some.inj (found.symm.trans again)
    have same : (Diagnostic.spec rejection.2).repeats (.spec first.2) := List.find?_some kept
    refine ⟨.spec first.2, ?_, tells_iff.mpr ⟨first.2, rfl, same, named, placed⟩⟩
    rw [mem_firsts_iff, ← alike same, kept]

theorem tellsOf_firsts (plain : ∀ diagnostic ∈ others, diagnostic.error? = none) :
    TellsOf (firsts (rejectedReports items ++ others)) items := by
  refine ⟨fun rejection member => ?_, fun rejection member => told_iff member others, ?_⟩
  · obtain ⟨diagnostic, kept, same⟩ := exists_repeats_of_mem
      (List.mem_append_left others (mem_rejectedReports member))
    obtain ⟨kind, message⟩ := repeats_iff.mp same
    exact ⟨diagnostic, kept, kind.symm, message.symm⟩
  · rw [filter_firsts plain, firsts_eq_self_iff, rejectedReports, List.pairwise_map,
      List.pairwise_map]

/-- Every rejected declaration is reported, as it says or by an earlier one that is alike. -/
theorem tells_of_rejections (run : Round.run settings items sink start = .ok round) :
    Fates items (homes items) (rejections items) ∧ TellsOf round.reports.diagnostics items := by
  obtain ⟨others, plain, all⟩ := exists_reports_eq run
  rw [all]
  exact ⟨fates items, tellsOf_firsts plain⟩

end Round

def Notes.collect : Sink (List GeneratedUnit) := fun unit units => (units ++ [unit], none)

/-- The marked enum of the notes is reported, and nothing else is rejected. -/
theorem Notes.tells_of_items : ∃ round, Round.run {} items collect [] = .ok round ∧
    (Round.rejections items).map (fun rejection => rejection.1.place) = [[1, 1]] ∧
    (round.reports.diagnostics.filter fun diagnostic => diagnostic.error?.isSome) =
      Round.rejectedReports items := by
  have finished : (Round.run {} items collect []).toOption.isSome := by decide +kernel
  obtain ⟨round, found⟩ := Option.isSome_iff_exists.mp finished
  obtain ⟨-, tells⟩ := Round.tells_of_rejections (ok_of_toOption found)
  exact ⟨round, ok_of_toOption found, by decide +kernel, tells.own.mpr (by decide +kernel)⟩

/-! Two structs without an id that are specs of one name, in modules of their own. -/
namespace Idless

def user (struct : String) (line : Nat) : Item :=
  .struct { attrs := [Notes.marked "user"], vis := [], name := ⟨struct, false⟩
            namePos := ⟨line, 0⟩, generics := none, bounded := false
            fields := .named [Notes.field [] "id" Notes.number], code := [] }

def items : List Item :=
  [.module { Notes.labels with name := ⟨"first", false⟩ } (some [user "U" 1]),
    .module { Notes.labels with name := ⟨"second", false⟩ } (some [user "V" 2])]

/-- Both are rejected, and nothing is reported of the second one. -/
theorem second_untold : (Round.rejections items).map (fun rejection =>
      (rejection.1.place, rejection.2.pos)) = [([0, 0], ⟨1, 0⟩), ([1, 0], ⟨2, 0⟩)] ∧
    (Round.run {} items Notes.collect []).toOption.map (fun round =>
      round.reports.diagnostics.map Diagnostic.pos) = some [⟨1, 0⟩] := by
  decide +kernel

end Idless
end EntityGen
