import EntityGen.Proofs.Reading.Canonical

/-! What a default repository holds after any number of puts. A run of puts writes one list of
entities, the listings of what is put one after the other, and the last entity of this list that
belongs to a slot is what is stored there. -/
namespace EntityGen

def Schema.written (schema : Schema) (puts : List (Iteration × EntityValue)) : List EntityValue :=
  puts.flatMap fun put => schema.entities put.1 put.2

theorem Schema.mem_written {schema : Schema} {puts : List (Iteration × EntityValue)}
    {reached : EntityValue} :
    reached ∈ schema.written puts ↔ ∃ put ∈ puts, schema.Reaches put.2 reached := by
  simp only [written, List.mem_flatMap, mem_entities]

theorem Schema.lastAt_eq_none {schema : Schema} {slot : Slot} {entities : List EntityValue} :
    schema.lastAt slot entities = none ↔ ∀ entity ∈ entities, schema.slot entity ≠ slot := by
  simp [lastAt, List.find?_eq_none]

theorem World.putAll_append (world : World) (schema : Schema) (stores : List Nat)
    (first rest : List EntityValue) : world.putAll schema stores (first ++ rest) =
      (world.putAll schema stores first).putAll schema stores rest :=
  List.foldl_append ..

namespace Repository

theorem run_eq_putAll (repository : Repository) (schema : Schema)
    (puts : List (Iteration × EntityValue)) (world : World) :
    repository.run schema puts world =
      world.putAll schema repository.writers (schema.written puts) := by
  induction puts generalizing world with
  | nil => rfl
  | cons first rest ih =>
    have start : repository.run schema (first :: rest) world = repository.run schema rest
        (((repository.storing schema first.1).putEntity first.2).run world).2 := rfl
    have order : schema.written (first :: rest) =
        schema.entities first.1 first.2 ++ schema.written rest := List.flatMap_cons
    rw [start, ih, Storing.world_putEntity, order, World.putAll_append]
    rfl

/-- A default repository starts with a new store, which holds nothing. -/
theorem value_run_build (schema : Schema) (world : World) (puts : List (Iteration × EntityValue))
    (slot : Slot) :
    let built := Repository.build world [] []
    ((built.2.run schema puts built.1).get world.stores.length slot).map Cell.value =
      (schema.lastAt slot (schema.written puts)).map EntityValue.value := by
  intro built
  have target : world.stores.length ∈ built.2.writers := List.mem_singleton_self _
  have bound : world.stores.length < built.1.stores.length := (intact_build schema world).bound
  have nothing : built.1.get world.stores.length slot = none := by
    rw [World.get_build, World.get, List.getElem?_eq_none (Nat.le_refl _), Option.bind_none]
  rw [run_eq_putAll, World.value_putAll schema target bound, nothing, Option.map_none,
    Option.or_none]

/-- After any puts into a default repository its store holds for each slot the last entity written
there, and a read of an entity finds nothing if and only if none of its type and id was ever put,
at any depth. -/
theorem last_put_wins (sound : schema.Sound) (world : World)
    (puts : List (Iteration × EntityValue)) (iteration : Nat → Iteration) (slot : Slot)
    (known : schema.Known slot.type) :
    let built := Repository.build world [] []
    let after := built.2.run schema puts built.1
    (after.get world.stores.length slot).map Cell.value =
        (schema.lastAt slot (schema.written puts)).map EntityValue.value ∧
      ((built.2.reading schema iteration after).get slot = some none ↔
        ∀ put ∈ puts, ∀ reached, schema.Reaches put.2 reached → schema.slot reached ≠ slot) := by
  intro built after
  have stored : (after.get world.stores.length slot).map Cell.value =
      (schema.lastAt slot (schema.written puts)).map EntityValue.value :=
    value_run_build schema world puts slot
  refine ⟨stored, ?_⟩
  let reading := built.2.reading schema iteration after
  have read : reading.stored slot = after.get world.stores.length slot :=
    read_single after world.stores.length built.2.writers slot
  have missing : reading.get slot = some none ↔ reading.stored slot = none := by
    constructor
    · intro answer
      by_contra present
      obtain ⟨cached, hit⟩ := Option.ne_none_iff_exists'.mp present
      obtain ⟨dirty, found, -⟩ := Reading.get_of_stored sound known hit
      rw [found] at answer
      cases answer
    · exact Reading.get_of_none sound known
  calc reading.get slot = some none
      ↔ (after.get world.stores.length slot).map Cell.value = none := by
        rw [missing, read, Option.map_eq_none_iff]
    _ ↔ ∀ entity ∈ schema.written puts, schema.slot entity ≠ slot := by
        rw [stored, Option.map_eq_none_iff, Schema.lastAt_eq_none]
    _ ↔ ∀ put ∈ puts, ∀ reached, schema.Reaches put.2 reached → schema.slot reached ≠ slot := by
        simp only [Schema.mem_written, forall_exists_index, and_imp]
        exact ⟨fun all put member reached reaches => all reached put member reaches,
          fun all reached put member reaches => all put member reached reaches⟩

end Repository

/-- Two albums are put. Their tag is stored as it stands in the later one, where it stands twice,
and a tag that is in neither is not found. -/
theorem Album.last_color :
    let built := Repository.build {} [] []
    let puts := [(Iteration.sorted, EntityValue.mk album (albumValue 1 (tagValue 7 0) [])),
      (Iteration.sorted, EntityValue.mk album
        (albumValue 2 (tagValue 7 5) [(tagValue 7 6, .int 10)]))]
    let after := built.2.run schema puts built.1
    (after.get 0 ⟨tag, .int 7⟩).map Cell.value = some (tagValue 7 6) ∧
      (built.2.reading schema (fun _ => Iteration.sorted) after).get ⟨tag, .int 9⟩ =
        some none := by
  intro built puts after
  have stored := (Repository.last_put_wins sound {} puts (fun _ => Iteration.sorted)
    ⟨tag, .int 7⟩ (by decide)).1
  have missing := (Repository.last_put_wins sound {} puts (fun _ => Iteration.sorted)
    ⟨tag, .int 9⟩ (by decide)).2
  refine ⟨stored.trans (by decide), missing.mpr ?_⟩
  intro put member reached reaches
  have listed : reached ∈ schema.written puts := Schema.mem_written.mpr ⟨put, member, reaches⟩
  have apart : ∀ entity ∈ schema.written puts, schema.slot entity ≠ ⟨tag, .int 9⟩ := by decide
  exact apart reached listed

end EntityGen
