import EntityGen.Proofs.Reading.Answers
import EntityGen.Proofs.Storing.Worlds

/-! What is put is what is read. A put overwrites all that it reaches; if this is one version of
each entity then nothing that is held is out of date afterwards. -/
namespace EntityGen

/-- Entities of one type and id that are reached from an entity are equal. -/
def Schema.Consistent (schema : Schema) (entity : EntityValue) : Prop :=
  ∀ a b, schema.Reaches entity a → schema.Reaches entity b → schema.slot a = schema.slot b → a = b

namespace Reading

variable {reading : Reading}

/-- If all that is reached from an entity is stored, a read finds the stored value. By induction on
the size of the entity. -/
theorem get_of_stores (sound : reading.schema.Sound) {entity : EntityValue}
    (known : reading.schema.Known entity.type)
    (all : ∀ reached, reading.schema.Reaches entity reached → reading.Stores reached) :
    ∃ cell, reading.stored (reading.schema.slot entity) = some cell ∧ cell.value = entity.value ∧
      reading.get (reading.schema.slot entity) = some (some (.stored cell)) := by
  induction size : sizeOf entity.value using Nat.strong_induction_on generalizing entity with
  | _ bound ih =>
    obtain ⟨cell, stored, same⟩ := all entity .refl
    obtain ⟨dirty, answer, clean⟩ := get_of_stored sound known stored
    have fresh : reading.UpToDate ⟨entity.type, cell.value⟩ := by
      rw [same]
      constructor
      · intro held direct latest found
        have refers : reading.schema.Refers entity held := .inl direct
        obtain ⟨inner, -, innerSame, innerAnswer⟩ := ih _ (size ▸ refers.sizeOf_lt)
          (sound.known_of_refers refers) (fun reached reaches => all reached (.head refers reaches)) rfl
        simpa [valueOf, innerAnswer, Found.value, innerSame] using found.symm
      · intro held contained
        exact (all held (.single (.inr contained))).settled
    rw [clean.mpr fresh] at answer
    exact ⟨cell, stored, same, answer⟩

end Reading

namespace Repository

variable {schema : Schema} {world : World} {entity : EntityValue}

/-- After a put of a consistent entity all that it reaches is stored. -/
theorem stores_of_put (consistent : schema.Consistent entity)
    (bound : store < world.stores.length) (order : Iteration) (iteration : Nat → Iteration)
    (reaches : schema.Reaches entity reached) :
    let repository : Repository := ⟨[store], [store]⟩
    let after := (((repository.storing schema order).putEntity entity).run world).2
    (repository.reading schema iteration after).Stores reached := by
  intro repository after
  have target : store ∈ (repository.storing schema order).writers := List.mem_singleton_self store
  obtain ⟨cell, last, stored, value, lastReaches, place⟩ :=
    Storing.get_of_reaches target bound reaches
  have same : last = reached := consistent last reached lastReaches reaches place
  have read : repository.read after (schema.slot reached) = some cell :=
    (read_single ..).trans stored
  exact ⟨cell, read, value.trans (congrArg EntityValue.value same)⟩

/-- With one store for reading and writing, a consistent entity that was put is read as it was put,
and is the stored value itself, whatever was stored before. -/
theorem get_of_put (sound : schema.Sound) (known : schema.Known entity.type)
    (consistent : schema.Consistent entity) (world : World) (bound : store < world.stores.length)
    (order : Iteration) (iteration : Nat → Iteration) :
    let repository : Repository := ⟨[store], [store]⟩
    let after := (((repository.storing schema order).putEntity entity).run world).2
    ∃ cell, repository.read after (schema.slot entity) = some cell ∧ cell.value = entity.value ∧
      (repository.reading schema iteration after).get (schema.slot entity) =
        some (some (.stored cell)) := by
  intro repository after
  let reading := repository.reading schema iteration after
  have all : ∀ reached, reading.schema.Reaches entity reached → reading.Stores reached :=
    fun reached reaches => stores_of_put consistent bound order iteration reaches
  exact reading.get_of_stores sound known all

end Repository

/-- An album is put over an older one and its tags over some of other colors. -/
theorem Album.get_album_of_put :
    let repository : Repository := ⟨[0], [0]⟩
    let older := albumValue 1 (tagValue 7 5) [(tagValue 8 5, .int 10)]
    let newer := albumValue 1 (tagValue 7 0) [(tagValue 7 0, .int 10), (tagValue 8 1, .int 20)]
    let before := (((repository.storing schema Iteration.sorted).putEntity ⟨album, older⟩).run
      (World.ofCount 1)).2
    let after := (((repository.storing schema Iteration.sorted).putEntity ⟨album, newer⟩).run
      before).2
    ∃ cell, repository.read after ⟨album, .int 1⟩ = some cell ∧ cell.value = newer ∧
      (repository.reading schema (fun _ => Iteration.sorted) after).get ⟨album, .int 1⟩ =
        some (some (.stored cell)) := by
  intro repository older newer before after
  have consistent : schema.Consistent ⟨album, newer⟩ := by
    intro a b first second same
    have firstListed := (Schema.mem_entities Iteration.sorted).mpr first
    have secondListed := (Schema.mem_entities Iteration.sorted).mpr second
    have listing : ∀ a ∈ schema.entities Iteration.sorted ⟨album, newer⟩,
        ∀ b ∈ schema.entities Iteration.sorted ⟨album, newer⟩,
          schema.slot a = schema.slot b → a = b := by decide
    exact listing a firstListed b secondListed same
  have bound : 0 < before.stores.length := by decide
  exact Repository.get_of_put sound (by decide) consistent before bound
    Iteration.sorted fun _ => Iteration.sorted

end EntityGen
