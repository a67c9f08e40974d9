import EntityGen.Proofs.Reading.Rebuild

/-! Reads come to an end, whatever is stored: they go into direct properties only, and no type
contains itself. So `get` is the solution of its own equation, and the bound on its depth does not
show. -/
namespace EntityGen.Reading

variable {reading : Reading} {iteration : Iteration} {get more : Slot → Option (Option Found)}

/-- Where a recursion over properties ends, there are no more types or no more values. -/
theorem nil_or_nil_of_end {types : List ResolvedType} {values : List Value}
    (ended : ∀ type types' value values', types = type :: types' → values = value :: values' →
      False) : types = [] ∨ values = [] := by
  cases types with
  | nil => exact .inl rfl
  | cons type types =>
    cases values with
    | nil => exact .inr rfl
    | cons value values => exact (ended _ _ _ _ rfl rfl).elim

theorem refresh_eq_none (fails : reading.refresh get iteration types values = none) :
    ∃ type value, (.entity type, value) ∈ types.zip values ∧
      get (reading.schema.slot ⟨type, value⟩) = none := by
  fun_induction refresh reading get iteration types values with
  | case1 iteration type types value values ih =>
    cases found : get (reading.schema.slot ⟨type, value⟩) with
    | none => exact ⟨type, value, List.mem_cons_self, found⟩
    | some latest =>
      have rest : reading.refresh get (iteration.within 1) types values = none :=
        Option.eq_none_iff_forall_ne_some.mpr (by simpa [found] using fails)
      obtain ⟨inner, field, member, none⟩ := ih rest
      exact ⟨inner, field, List.mem_cons_of_mem _ member, none⟩
  | case2 iteration type types value values plain ih =>
    have rest : reading.refresh get (iteration.within 1) types values = none :=
      Option.eq_none_iff_forall_ne_some.mpr (by simpa using fails)
    obtain ⟨inner, field, member, none⟩ := ih rest
    exact ⟨inner, field, List.mem_cons_of_mem _ member, none⟩
  | case3 => cases fails

theorem refresh_mono (larger : ∀ slot found, get slot = some found → more slot = some found)
    (done : reading.refresh get iteration types values = some states) :
    reading.refresh more iteration types values = some states := by
  fun_induction refresh reading get iteration types values generalizing states with
  | case1 iteration type types value values ih =>
    simp only [Option.bind_eq_bind, Option.bind_eq_some_iff] at done
    obtain ⟨latest, found, rest, refreshed, same⟩ := done
    simpa [refresh, larger _ _ found, ih refreshed] using same
  | case2 iteration type types value values plain ih =>
    simp only [Option.bind_eq_bind, Option.bind_eq_some_iff] at done
    obtain ⟨rest, refreshed, same⟩ := done
    rw [refresh, ih refreshed]
    · exact same
    · exact plain
  | case3 types iteration values noEntity noOther =>
    rw [refresh]
    · exact done
    · exact noEntity
    · exact noOther

theorem current_mono (larger : ∀ slot found, get slot = some found → more slot = some found)
    (done : reading.current get type cached = some found) :
    reading.current more type cached = some found := by
  unfold current at done ⊢
  split at done
  next fields whole =>
    obtain ⟨states, refreshed, same⟩ := Option.map_eq_some_iff.mp done
    exact Option.map_eq_some_iff.mpr ⟨states, refresh_mono larger refreshed, same⟩
  next => exact done

/-- Allowing for more depth changes no answer. -/
theorem getWithin_succ (done : reading.getWithin depth slot = some found) :
    reading.getWithin (depth + 1) slot = some found := by
  induction depth generalizing slot found with
  | zero => cases done
  | succ depth ih =>
    rw [getWithin] at done ⊢
    split at done
    next => exact done
    next cached stored =>
      obtain ⟨result, done, same⟩ := Option.map_eq_some_iff.mp done
      have larger : ∀ slot found, reading.getWithin depth slot = some found →
          reading.getWithin (depth + 1) slot = some found := fun _ _ => ih
      exact Option.map_eq_some_iff.mpr ⟨result, current_mono larger done, same⟩

theorem current_eq_none (fails : reading.current get type cached = none) :
    ∃ held, reading.schema.HoldsDirectly ⟨type, cached.value⟩ held ∧
      get (reading.schema.slot held) = none := by
  unfold current at fails
  split at fails
  next fields whole =>
    obtain ⟨inner, value, member, none⟩ := refresh_eq_none (Option.map_eq_none_iff.mp fails)
    exact ⟨⟨inner, value⟩, whole ▸ .property member, none⟩
  next => cases fails

/-- If a read is cut off, there is a chain of types below the one that is read, each contained in
the one before, that is as long as the depth allowed for. -/
theorem getWithin_eq_none (sound : reading.schema.Sound)
    (fails : reading.getWithin depth slot = none) :
    ∃ below : List EntityType, below.length = depth ∧ below.Nodup ∧
      ∀ type ∈ below, reading.schema.Known type ∧
        Relation.TransGen reading.schema.Embeds slot.type type := by
  induction depth generalizing slot with
  | zero => exact ⟨[], rfl, List.nodup_nil, by simp⟩
  | succ depth ih =>
    rw [getWithin] at fails
    split at fails
    next => cases fails
    next cached stored =>
      obtain ⟨held, direct, none⟩ := current_eq_none (Option.map_eq_none_iff.mp fails)
      obtain ⟨below, length, distinct, chain⟩ := ih none
      have embeds : reading.schema.Embeds slot.type held.type := direct.embeds
      refine ⟨held.type :: below, by simp [length], List.nodup_cons.mpr ⟨?_, distinct⟩, ?_⟩
      · exact fun cycle => sound.acyclic _ (chain _ cycle).2
      · intro type member
        rcases List.mem_cons.mp member with rfl | member
        · exact ⟨sound.known_of_embeds embeds, .single embeds⟩
        · exact ⟨(chain type member).1, .head embeds (chain type member).2⟩

/-- Each read has an answer. -/
theorem get_isSome (sound : reading.schema.Sound) (known : reading.schema.Known slot.type) :
    (reading.get slot).isSome := by
  rw [Option.isSome_iff_ne_none]
  intro fails
  obtain ⟨below, length, distinct, chain⟩ := getWithin_eq_none sound fails
  have all : (slot.type :: below).Nodup :=
    List.nodup_cons.mpr ⟨fun cycle => sound.acyclic _ (chain _ cycle).2, distinct⟩
  have inside : slot.type :: below ⊆ reading.schema.map EntitySchema.type := by
    intro type member
    rcases List.mem_cons.mp member with rfl | member
    · exact Schema.known_iff.mp known
    · exact Schema.known_iff.mp (chain type member).1
  have bound := all.length_le_of_subset inside
  simp only [List.length_cons, List.length_map] at bound
  omega

theorem get_eq (sound : reading.schema.Sound) (known : reading.schema.Known slot.type) :
    reading.get slot = match reading.stored slot with
      | none => some none
      | some cached => (reading.current reading.get slot.type cached).map some := by
  obtain ⟨found, done⟩ := Option.isSome_iff_exists.mp (get_isSome sound known)
  have deeper := getWithin_succ done
  rw [done, ← deeper, getWithin]
  rfl

end EntityGen.Reading
