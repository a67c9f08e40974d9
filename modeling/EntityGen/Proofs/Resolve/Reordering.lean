import EntityGen.Proofs.Resolve.PlainIds
import Mathlib.Data.String.Basic

/-! Specs in another order. The table has its entries in the order of their names, in whatever order
they came. So where no two specs have one type name, each of them is judged for its id alone, and
what becomes of it does not depend on where it stands. -/
namespace EntityGen

namespace EntityTable

variable {table larger other : EntityTable} {entity : EntityType}

def Ordered (table : EntityTable) : Prop :=
  table.entries.Pairwise fun earlier later => earlier.name.text ≤ later.name.text

theorem pairwise_place (entity : EntityType) (entries : List EntityType)
    (ordered : entries.Pairwise fun earlier later => earlier.name.text ≤ later.name.text) :
    (place entity entries).Pairwise fun earlier later => earlier.name.text ≤ later.name.text := by
  induction entries with
  | nil => exact List.pairwise_singleton ..
  | cons entry rest ih =>
    obtain ⟨first, later⟩ := List.pairwise_cons.mp ordered
    rw [place]
    split
    next less =>
      refine List.pairwise_cons.mpr ⟨fun found member => ?_, ordered⟩
      rcases List.mem_cons.mp member with rfl | inside
      · exact le_of_lt less
      · exact (le_of_lt less).trans (first found inside)
    next notLess =>
      refine List.pairwise_cons.mpr ⟨fun found member => ?_, ih later⟩
      rcases List.mem_cons.mp ((perm_place entity rest).subset member) with rfl | inside
      · exact not_lt.mp notLess
      · exact first found inside

theorem Ordered.insert (ordered : table.Ordered) (inserted : table.insert entity = .ok larger) :
    larger.Ordered := by
  unfold EntityTable.insert at inserted
  split at inserted
  next => cases inserted
  next =>
    obtain rfl := Except.ok.inj inserted
    exact pairwise_place entity table.entries ordered

/-- A table is decided by which entries it has. -/
theorem Ordered.eq_of_perm (ordered : table.Ordered) (alike : other.Ordered)
    (distinct : (table.entries.map fun entry => entry.name.text).Nodup)
    (same : table.entries.Perm other.entries) : table = other := by
  cases table
  cases other
  refine congrArg EntityTable.mk (List.Perm.eq_of_pairwise ?_ ordered alike same)
  intro a b inside within le ge
  exact List.inj_on_of_nodup_map distinct inside (same.mem_iff.mpr within) (le_antisymm le ge)

end EntityTable

namespace Resolution

variable {specs others : List Spec} {spec : Spec} {i : Nat}

theorem ordered_sort (specs : List Spec) : (sort specs).table.Ordered := by
  refine List.foldlRecOn (motive := fun sorted : Sorted => sorted.table.Ordered) specs _ .nil ?_
  intro sorted ordered spec _
  unfold sortOne
  split
  next table accepted => exact ordered.insert (accept_ok accepted).2
  next => exact ordered

/-- The id of a spec names one of the specs, whether that is accepted or not. -/
def idRefers (specs : List Spec) (spec : Spec) : Bool :=
  ((candidates specs).resolve spec.idField.ty).mentionsEntity

theorem idRefers_perm (same : others.Perm specs) : idRefers others spec = idRefers specs spec := by
  rw [Bool.eq_iff_iff]
  simp only [idRefers, mentionsEntity_candidates_iff, IdRefers, same.mem_iff]

/-- What becomes of a spec that has its type name to itself. -/
def fate (specs : List Spec) (spec : Spec) : SpecError ⊕ Entity :=
  if idRefers specs spec then .inl spec.idError else .inr (entity (ofSpecs specs).table spec)

section
variable (distinct : (specs.map fun spec => spec.typeName.text).Nodup)
include distinct

theorem verdict_of_distinct (here : specs[i]? = some spec) :
    verdict (candidates specs) (before specs i) spec = (fate specs spec).getLeft? := by
  by_cases refers : idRefers specs spec = true
  · rw [fate, if_pos refers]
    exact verdict_eq_idError refers
  · rw [fate, if_neg refers]
    refine (verdict_eq_none_iff (faithful_before specs i)).mpr ⟨Bool.eq_false_iff.mpr refers, ?_⟩
    intro other accepted same
    have bound := (List.getElem?_eq_some_iff.mp here).1
    obtain ⟨j, below, there, -⟩ := (mem_accepted_before (Nat.le_of_lt bound)).mp accepted
    have twice : (specs.map fun spec => spec.typeName.text)[j]? =
        (specs.map fun spec => spec.typeName.text)[i]? := by
      rw [List.getElem?_map, List.getElem?_map, there, here, Option.map_some, Option.map_some, same]
    exact below.ne ((List.getElem?_inj (by rw [List.length_map]; omega) distinct).mp twice)

theorem verdicts_of_distinct : verdicts specs = specs.map fun spec => (fate specs spec).getLeft? := by
  refine List.ext_getElem? fun i => ?_
  rw [List.getElem?_map]
  cases here : specs[i]? with
  | none => simpa [verdicts] using here
  | some spec => rw [getElem?_verdicts here, verdict_of_distinct distinct here, Option.map_some]

theorem accepted_of_distinct :
    (sort specs).accepted = specs.filter fun spec => !idRefers specs spec := by
  have all := accepted_before specs specs.length (Nat.le_refl _)
  rw [before_length, List.take_of_length_le (by simp [verdicts]), verdicts_of_distinct distinct] at all
  rw [all, ← List.map_prod_left_eq_zip, List.filter_map, List.map_map]
  refine (List.map_id _).trans (List.filter_congr fun spec _ => ?_)
  by_cases refers : idRefers specs spec = true <;> simp [fate, refers]

theorem entities_of_distinct :
    (ofSpecs specs).entities = specs.filterMap fun spec => (fate specs spec).getRight? := by
  rw [ofSpecs, accepted_of_distinct distinct, ← List.filterMap_eq_map, List.filterMap_filter]
  refine List.filterMap_congr fun spec _ => ?_
  by_cases refers : idRefers specs spec = true <;> simp [fate, refers, ofSpecs]

theorem errors_of_distinct :
    (ofSpecs specs).errors = specs.filterMap fun spec => (fate specs spec).getLeft? := by
  have all := errors_before specs specs.length (Nat.le_refl _)
  rw [before_length, List.take_of_length_le (by simp [verdicts]), verdicts_of_distinct distinct,
    List.filterMap_map] at all
  exact all

end

/-- Where every spec has its type name to itself, the table is the same in every order of the specs,
and each spec has one fate: the entities and the errors stand in the order of their specs. -/
theorem ofSpecs_reordered (distinct : (specs.map fun spec => spec.typeName.text).Nodup)
    (same : others.Perm specs) :
    (ofSpecs others).table = (ofSpecs specs).table ∧
      (ofSpecs others).entities = others.filterMap (fun spec => (fate specs spec).getRight?) ∧
      (ofSpecs others).errors = others.filterMap (fun spec => (fate specs spec).getLeft?) := by
  have apart : (others.map fun spec => spec.typeName.text).Nodup := (same.map _).nodup_iff.mpr distinct
  have accepted : (sort others).accepted.Perm (sort specs).accepted := by
    rw [accepted_of_distinct apart, accepted_of_distinct distinct]
    simp only [idRefers_perm same]
    exact same.filter _
  have table : (ofSpecs others).table = (ofSpecs specs).table :=
    (ordered_sort others).eq_of_perm (ordered_sort specs) (nodup_table others) <|
      (perm_sort others).trans ((accepted.map Spec.type).trans (perm_sort specs).symm)
  have fates : ∀ spec, fate others spec = fate specs spec := by
    intro spec
    rw [fate, fate, idRefers_perm same, table]
  refine ⟨table, ?_, ?_⟩
  · simpa only [fates] using entities_of_distinct apart
  · simpa only [fates] using errors_of_distinct apart

end Resolution

/-! A user with a friend, a post with an author, and a draft that is known by its post. -/
namespace Drafts

def post : Ty := .path false [.bare ⟨"Post", false⟩]

def drafts : List Spec :=
  [Users.declared [] Users.number [Users.user, post],
    { Users.declared [] Users.number [Users.user] with
      ident := ⟨"PostSpec", false⟩, name := "post", typeName := ⟨"Post", false⟩ },
    { Users.declared [] post [] with
      ident := ⟨"DraftSpec", false⟩, name := "draft", typeName := ⟨"Draft", false⟩ }]

/-- With the draft first and the user last the same two specs are accepted. -/
theorem drafts_reordered :
    (drafts.map fun spec => spec.typeName.text).Nodup ∧ drafts.reverse.Perm drafts ∧
      (Resolution.ofSpecs drafts.reverse).table = (Resolution.ofSpecs drafts).table ∧
      (Resolution.ofSpecs drafts.reverse).entities =
        drafts.reverse.filterMap (fun spec => (Resolution.fate drafts spec).getRight?) ∧
      (Resolution.ofSpecs drafts.reverse).errors =
        drafts.reverse.filterMap (fun spec => (Resolution.fate drafts spec).getLeft?) ∧
      (Resolution.ofSpecs drafts).entities.map Entity.name = [⟨"User", false⟩, ⟨"Post", false⟩] := by
  have distinct : (drafts.map fun spec => spec.typeName.text).Nodup := by decide
  obtain ⟨table, entities, errors⟩ := Resolution.ofSpecs_reordered distinct drafts.reverse_perm
  exact ⟨distinct, drafts.reverse_perm, table, entities, errors, by decide⟩

end Drafts
end EntityGen
