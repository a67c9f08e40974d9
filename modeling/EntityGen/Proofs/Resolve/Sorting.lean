import EntityGen.Proofs.Resolve.Growth
import Mathlib.Data.List.Nodup

/-! Specs on their way through a round. The table always has the types of the accepted specs, and
no accepted spec has an id that mentions an entity by the names of all specs. -/
namespace EntityGen.Resolution

variable {specs : List Spec} {spec : Spec} {sorted : Sorted}

theorem contains_candidates (member : spec ∈ specs) :
    (candidates specs).contains spec.typeName.text := by
  suffices general : ∀ table : EntityTable, table.contains spec.typeName.text ∨ spec ∈ specs →
      (specs.foldl (fun table spec => table.offer spec.type) table).contains spec.typeName.text from
    general {} (.inr member)
  clear member
  induction specs with
  | nil => exact fun table taken => taken.resolve_right List.not_mem_nil
  | cons first rest ih =>
    intro table taken
    refine ih _ ?_
    rcases taken with taken | member
    · exact .inl (EntityTable.contains_offer.mpr (.inr taken))
    · rcases List.mem_cons.mp member with rfl | later
      · exact .inl (EntityTable.contains_offer.mpr (.inl rfl))
      · exact .inr later

/-- What holds of specs that are being sorted. -/
structure Sorted.Faithful (specs : List Spec) (sorted : Sorted) : Prop where
  entries : ∀ entity, entity ∈ sorted.table.entries ↔ ∃ spec ∈ sorted.accepted, spec.type = entity
  members : ∀ spec ∈ sorted.accepted, spec ∈ specs
  plainIds : ∀ spec ∈ sorted.accepted,
    ((candidates specs).resolve spec.idField.ty).mentionsEntity = false

theorem accept_ok {known table larger : EntityTable} (accepted : accept known table spec = .ok larger) :
    (known.resolve spec.idField.ty).mentionsEntity = false ∧
      table.insert spec.type = .ok larger := by
  unfold accept at accepted
  split at accepted
  next => cases accepted
  next plain =>
    refine ⟨Bool.eq_false_iff.mpr plain, ?_⟩
    cases inserted : table.insert spec.type with
    | error owner =>
      rw [inserted] at accepted
      cases accepted
    | ok new =>
      rw [inserted] at accepted
      exact congrArg Except.ok (Except.ok.inj accepted)

theorem Sorted.Faithful.sortOne (faithful : sorted.Faithful specs) (member : spec ∈ specs) :
    (sortOne (candidates specs) sorted spec).Faithful specs := by
  unfold Resolution.sortOne
  split
  next table accepted =>
    obtain ⟨plain, inserted⟩ := accept_ok accepted
    refine ⟨?_, ?_, ?_⟩
    · intro entity
      rw [EntityTable.mem_insert inserted, faithful.entries]
      simp only [List.mem_append, List.mem_singleton, or_and_right, exists_or, exists_eq_left]
      exact or_comm.trans (or_congr_right eq_comm)
    · intro other inside
      rcases List.mem_append.mp inside with before | here
      · exact faithful.members other before
      · exact List.mem_singleton.mp here ▸ member
    · intro other inside
      rcases List.mem_append.mp inside with before | here
      · exact faithful.plainIds other before
      · exact List.mem_singleton.mp here ▸ plain
  next => exact ⟨faithful.entries, faithful.members, faithful.plainIds⟩

theorem faithful_sort (specs : List Spec) : (sort specs).Faithful specs := by
  suffices general : ∀ rest : List Spec, ∀ sorted : Sorted, sorted.Faithful specs → rest ⊆ specs →
      (rest.foldl (sortOne (candidates specs)) sorted).Faithful specs from
    general specs {} ⟨by simp, by simp, by simp⟩ fun _ => id
  intro rest
  induction rest with
  | nil => exact fun sorted faithful _ => faithful
  | cons first rest ih =>
    intro sorted faithful inside
    obtain ⟨here, later⟩ := List.cons_subset.mp inside
    exact ih _ (faithful.sortOne here) later

/-- The names of accepted specs are names of specs. -/
theorem within_candidates (specs : List Spec) : (sort specs).table.Within (candidates specs) := by
  have faithful := faithful_sort specs
  intro name taken
  obtain ⟨entity, entry, rfl⟩ := EntityTable.contains_iff.mp taken
  obtain ⟨owner, accepted, rfl⟩ := (faithful.entries entity).mp entry
  exact contains_candidates (faithful.members owner accepted)

/-- The id of an accepted spec mentions no entity, by the names of accepted specs either. -/
theorem mentionsEntity_id (member : spec ∈ (sort specs).accepted) :
    ((sort specs).table.resolve spec.idField.ty).mentionsEntity = false := by
  refine Bool.eq_false_iff.mpr fun mentions => ?_
  have plain := (faithful_sort specs).plainIds spec member
  rw [EntityTable.mentionsEntity_mono (within_candidates specs) _ mentions] at plain
  cases plain

theorem Sorted.Faithful.nodup_sortOne (faithful : sorted.Faithful specs)
    (nodup : (sorted.accepted.map fun spec => spec.typeName.text).Nodup) (spec : Spec) :
    ((Resolution.sortOne (candidates specs) sorted spec).accepted.map
      fun spec => spec.typeName.text).Nodup := by
  unfold Resolution.sortOne
  split
  next table accepted =>
    have free := EntityTable.not_contains_of_insert (accept_ok accepted).2
    rw [List.map_append, List.nodup_append]
    refine ⟨nodup, List.nodup_singleton _, fun name member _ last same => free ?_⟩
    obtain ⟨owner, before, rfl⟩ := List.mem_map.mp member
    have entry := (faithful.entries owner.type).mpr ⟨owner, before, rfl⟩
    obtain rfl := List.mem_singleton.mp last
    exact EntityTable.contains_iff.mpr ⟨_, entry, same⟩
  next => exact nodup

/-- No two accepted specs have one type name. -/
theorem nodup_sort (specs : List Spec) :
    ((sort specs).accepted.map fun spec => spec.typeName.text).Nodup := by
  suffices general : ∀ rest : List Spec, ∀ sorted : Sorted, sorted.Faithful specs → rest ⊆ specs →
      (sorted.accepted.map fun spec => spec.typeName.text).Nodup →
      ((rest.foldl (sortOne (candidates specs)) sorted).accepted.map
        fun spec => spec.typeName.text).Nodup from
    general specs {} ⟨by simp, by simp, by simp⟩ (fun _ => id) List.nodup_nil
  intro rest
  induction rest with
  | nil => exact fun sorted _ _ nodup => nodup
  | cons first rest ih =>
    intro sorted faithful inside nodup
    obtain ⟨here, later⟩ := List.cons_subset.mp inside
    exact ih _ (faithful.sortOne here) later (faithful.nodup_sortOne nodup first)

/-- The table holds the types of the accepted specs, each once. -/
theorem perm_sort (specs : List Spec) :
    (sort specs).table.entries.Perm ((sort specs).accepted.map Spec.type) := by
  refine List.foldlRecOn (motive := fun sorted : Sorted =>
    sorted.table.entries.Perm (sorted.accepted.map Spec.type)) specs _ .rfl ?_
  intro sorted same spec _
  unfold sortOne
  split
  next table accepted =>
    rw [List.map_append]
    exact (EntityTable.perm_insert (accept_ok accepted).2).trans
      ((same.cons _).trans (List.perm_append_singleton ..).symm)
  next => exact same

theorem nodup_types (specs : List Spec) : ((ofSpecs specs).entities.map Entity.type).Nodup := by
  refine .of_map (fun type : EntityType => type.name.text) ?_
  rw [ofSpecs, List.map_map, List.map_map]
  exact nodup_sort specs

end EntityGen.Resolution
