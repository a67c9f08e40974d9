import EntityGen.Proofs.Reading.Answers
import EntityGen.Proofs.Storing.Reachable

/-! When a read rebuilds. The dirty flag is about the entities that are held, but it tells whether
the rebuilt entity differs from the cached one. -/
namespace EntityGen

namespace Reading

variable {reading : Reading} {iteration : Iteration}

/-- Properties that are up to date are not changed. -/
theorem renewFields_eq_self (lengths : values.length = types.length)
    (typed : ∀ type value, (type, value) ∈ types.zip values → Typed reading.schema type value)
    (current : ∀ type value, (type, value) ∈ types.zip values → reading.Current type value) :
    reading.renewFields iteration types values = values := by
  fun_induction renewFields reading iteration types values with
  | case1 iteration target types value values ih =>
    have rest := ih (Nat.succ.inj lengths)
      (fun type value member => typed type value (List.mem_cons_of_mem _ member))
      fun type value member => current type value (List.mem_cons_of_mem _ member)
    have first := current _ _ List.mem_cons_self
    rw [rest]
    cases latest : reading.valueOf (reading.schema.slot ⟨target, value⟩) with
    | none => rfl
    | some found => rw [first found latest, Option.getD_some]
  | case2 iteration type types value values plain ih =>
    have rest := ih (Nat.succ.inj lengths)
      (fun type value member => typed type value (List.mem_cons_of_mem _ member))
      fun type value member => current type value (List.mem_cons_of_mem _ member)
    have settled := (current_of_plain plain).mp (current _ _ List.mem_cons_self)
    rw [rest, renew_eq_self (typed _ _ List.mem_cons_self) _ settled]
  | case3 types iteration values noEntity noOther =>
    rcases nil_or_nil_of_end noOther with rfl | rfl
    · exact (List.length_eq_zero_iff.mp lengths).symm
    · rfl

/-- Properties that do not change are up to date: an entity in a renewed container is as it is
stored, so the cached one that it replaces was. -/
theorem current_of_renewFields_eq (keyed : reading.Keyed)
    (same : reading.renewFields iteration types values = values) :
    ∀ type value, (type, value) ∈ types.zip values → reading.Current type value := by
  fun_induction renewFields reading iteration types values with
  | case1 iteration target types value values ih =>
    obtain ⟨first, rest⟩ := List.cons.inj same
    intro type other member
    rcases List.mem_cons.mp member with here | later
    · obtain ⟨rfl, rfl⟩ := Prod.mk.inj here
      intro latest found
      rw [found] at first
      exact first
    · exact ih rest type other later
  | case2 iteration first types value values plain ih =>
    obtain ⟨renewed, rest⟩ := List.cons.inj same
    intro type other member
    rcases List.mem_cons.mp member with here | later
    · obtain ⟨rfl, rfl⟩ := Prod.mk.inj here
      refine (current_of_plain plain).mpr fun held holds => ?_
      rw [← renewed] at holds
      obtain ⟨original, -, rfl⟩ := holds_renew _ _ _ holds
      exact settled_latest keyed original
    · exact ih rest type other later
  | case3 types iteration values noEntity noOther =>
    intro type value member
    rcases nil_or_nil_of_end noOther with rfl | rfl <;> simp at member

/-- A rebuilt entity is the cached one if and only if all that it holds is up to date. -/
theorem renewed_eq_iff (keyed : reading.Keyed)
    (typed : Typed reading.schema (.entity type) cached.value) :
    reading.renewed type cached = cached.value ↔ reading.UpToDate ⟨type, cached.value⟩ := by
  unfold renewed
  generalize cached.value = value at typed
  cases typed with
  | @entity _ fields known lengths properties =>
    rw [upToDate_seq, Value.seq.injEq]
    exact ⟨current_of_renewFields_eq keyed, renewFields_eq_self lengths properties⟩

end Reading

namespace Repository

variable {schema : Schema} {world : World} {repository : Repository}

theorem keyed_reading (reachable : world.Reachable schema) (iteration : Nat → Iteration) :
    (repository.reading schema iteration world).Keyed := by
  intro slot cell stored
  obtain ⟨store, -, stored⟩ := read_some stored
  exact (reachable.every store slot cell stored).1

/-- A read answers with the cached value itself if this is what it is rebuilt to, and else with the
rebuilt one. -/
theorem get_of_hit (sound : schema.Sound) (reachable : world.Reachable schema)
    (repository : Repository) (iteration : Nat → Iteration)
    (hit : repository.read world slot = some cached) :
    let reading := repository.reading schema iteration world
    let rebuilt := reading.renewed slot.type cached
    reading.get slot =
      some (some (if rebuilt = cached.value then .stored cached else .rebuilt rebuilt)) := by
  intro reading rebuilt
  have keyed : reading.Keyed := keyed_reading reachable iteration
  obtain ⟨store, -, stored⟩ := read_some hit
  have typed := (reachable.every store slot cached stored).2
  obtain ⟨dirty, answer, clean⟩ := reading.get_of_stored sound typed.known hit
  have same : rebuilt = cached.value ↔ dirty = false :=
    (Reading.renewed_eq_iff keyed typed).trans clean.symm
  cases dirty with
  | false =>
    have unchanged : rebuilt = cached.value := same.mpr rfl
    rw [answer, if_pos unchanged]
    rfl
  | true =>
    have changed : rebuilt ≠ cached.value := fun equal => Bool.noConfusion (same.mp equal)
    rw [answer, if_neg changed]
    rfl

end Repository

/-- An album is put whose two tags have the same id but different colors. The tags are put after it,
one over the other, so that a read finds the colors changed and one entry left of two. -/
theorem Album.get_album_of_two_colors :
    let repository : Repository := ⟨[0], [0]⟩
    let twoColors := albumValue 1 (tagValue 7 0)
      [(tagValue 8 1, .int 10), (tagValue 8 2, .int 20)]
    let world := (((repository.storing schema Iteration.sorted).putEntity ⟨album, twoColors⟩).run
      (World.ofCount 1)).2
    (repository.reading schema (fun _ => Iteration.sorted) world).get ⟨album, .int 1⟩ =
      some (some (.rebuilt (albumValue 1 (tagValue 7 0) [(tagValue 8 2, .int 20)]))) := by
  intro repository twoColors world
  have ascending : Value.Ascending [(tagValue 8 1, .int 10), (tagValue 8 2, .int 20)] := by
    simp only [Value.Ascending, List.pairwise_pair]
    decide
  have typed : Typed schema (.entity album) twoColors := by
    refine typed_album 1 (typed_tag 7 0) ascending fun pair member => ?_
    have cases : pair = (tagValue 8 1, .int 10) ∨ pair = (tagValue 8 2, .int 20) := by
      simpa using member
    rcases cases with rfl | rfl <;> exact typed_tag ..
  have reachable : world.Reachable schema :=
    .put repository Iteration.sorted ⟨album, twoColors⟩ (.ofCount 1) typed
  have hit : repository.read world ⟨album, .int 1⟩ = some ⟨0, twoColors⟩ := by decide
  exact (Repository.get_of_hit sound reachable repository _ hit).trans (by decide)

end EntityGen
