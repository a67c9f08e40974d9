import EntityGen.Proofs.Reading.Dependence
import EntityGen.Proofs.Reading.LastWrite
import EntityGen.Proofs.Reading.RoundTrip
import EntityGen.Proofs.Storing.Nested

/-! Putting back what was read. Entities in a container of an answer are as they are stored, and
what they hold in turn may be older than what is stored for it, or than what a read makes of it. To
put the answer makes such versions the stored ones. It changes no answer exactly if the containers
of all answers have the version of each entity concerned that a read finds. -/
namespace EntityGen

namespace Reading

/-- Two readings of one schema answer each read, with equal values. -/
def AnswerAlike (reading other : Reading) : Prop := ∀ slot, reading.schema.Known slot.type →
  ∃ found later, reading.get slot = some found ∧ other.get slot = some later ∧
    later.map Found.value = found.map Found.value

/-- What answers have for an entity in containers is what a read of this entity finds. -/
def OneVersion (reading : Reading) (slot : Slot) : Prop :=
  ∀ owner held, reading.Answers owner → reading.schema.HoldsInContainer owner held →
    reading.schema.slot held = slot → reading.Finds held

variable {reading : Reading} {stored : Slot → Option Cell} {entity held owner : EntityValue}

theorem answerAlike_iff (sound : reading.schema.Sound) :
    reading.AnswerAlike { reading with stored } ↔ ∀ slot, reading.schema.Known slot.type →
      { reading with stored }.valueOf slot = reading.valueOf slot := by
  constructor
  · intro alike slot known
    obtain ⟨found, later, answer, again, same⟩ := alike slot known
    rw [valueOf, valueOf, answer, again]
    exact same
  · intro values slot known
    obtain ⟨found, answer⟩ := Option.isSome_iff_exists.mp (get_isSome sound known)
    have laterSound : { reading with stored }.schema.Sound := sound
    obtain ⟨later, again⟩ := Option.isSome_iff_exists.mp (get_isSome laterSound known)
    have same := values slot known
    rw [valueOf, valueOf, answer, again] at same
    exact ⟨found, later, answer, again, same⟩

theorem answers_iff : reading.Answers owner ↔ reading.schema.Known owner.type ∧
    ∃ id, reading.valueOf ⟨owner.type, id⟩ = some owner.value := by
  simp [Answers, valueOf, Option.join_eq_some_iff]

theorem Finds.answers (finds : reading.Finds entity) (known : reading.schema.Known entity.type) :
    reading.Answers entity :=
  answers_iff.mpr ⟨known, _, finds_iff.mp finds⟩

/-- In a canonical reading an entity that is stored as it is read has one version. -/
theorem Canonical.oneVersion (canonical : reading.Canonical) {slot : Slot}
    (fresh : reading.valueOf slot = (reading.stored slot).map Cell.value) :
    reading.OneVersion slot := by
  rintro owner held answers inside rfl
  obtain ⟨cell, stored, value⟩ := canonical.contained owner answers held inside
  rw [finds_iff, fresh, stored, Option.map_some, value]

/-- All that is reached from what a read finds is found by reads too, if it has one version. -/
theorem Canonical.finds_of_reaches (canonical : reading.Canonical) (sound : reading.schema.Sound)
    (known : reading.schema.Known entity.type) (finds : reading.Finds entity)
    (versions : ∀ reached, reading.schema.Reaches entity reached →
      reading.OneVersion (reading.schema.slot reached))
    (reaches : reading.schema.Reaches entity reached) :
    reading.schema.Known reached.type ∧ reading.Finds reached := by
  induction reaches with
  | refl => exact ⟨known, finds⟩
  | @tail owner held start refers ih =>
    obtain ⟨ownerKnown, ownerFinds⟩ := ih
    have answers := ownerFinds.answers ownerKnown
    refine ⟨sound.known_of_refers refers, ?_⟩
    rcases refers with direct | inside
    · exact canonical.direct owner answers held direct
    · exact versions held (start.tail (.inr inside)) owner held answers inside rfl

/-- What is reached from an entity is stored, and else the same as before. -/
structure Overwritten (reading : Reading) (entity : EntityValue) (stored : Slot → Option Cell) :
    Prop where
  canonical : { reading with stored }.Canonical
  stores : ∀ reached, reading.schema.Reaches entity reached →
    { reading with stored }.Stores reached
  apart : ∀ slot, (∀ reached, reading.schema.Reaches entity reached →
    reading.schema.slot reached ≠ slot) → stored slot = reading.stored slot

namespace Overwritten

variable (overwritten : reading.Overwritten entity stored)
include overwritten

/-- A read of what was written finds it. -/
theorem valueOf_of_reaches (sound : reading.schema.Sound)
    (known : reading.schema.Known reached.type) (reaches : reading.schema.Reaches entity reached) :
    { reading with stored }.valueOf (reading.schema.slot reached) = some reached.value := by
  have laterSound : { reading with stored }.schema.Sound := sound
  obtain ⟨cell, -, value, answer⟩ := get_of_stores laterSound known fun inner further =>
    overwritten.stores inner (reaches.trans further)
  simp [valueOf, answer, Found.value, value]

/-- The latest version of an entity that an answer shows in a container is still the same. -/
theorem latest_eq (keyed : reading.Keyed)
    (finds : ∀ reached, reading.schema.Reaches entity reached → reading.Finds reached)
    (shown : ∀ reached, reading.schema.Reaches entity reached →
      reading.schema.slot reached = reading.schema.slot held → reading.Finds (reading.latest held)) :
    { reading with stored }.latest held = reading.latest held := by
  by_cases written : ∃ reached, reading.schema.Reaches entity reached ∧
      reading.schema.slot reached = reading.schema.slot held
  · obtain ⟨reached, reaches, place⟩ := written
    have before : reading.latest held = reached := (shown reached reaches place).unique
      (finds reached reaches) ((slot_latest keyed held).trans place.symm)
    have laterKeyed : { reading with stored }.Keyed := overwritten.canonical.keyed
    have found := overwritten.stores reached reaches
    have present : ({ reading with stored }.stored (reading.schema.slot held)).isSome := by
      obtain ⟨cell, stored, -⟩ := found
      exact Option.isSome_of_eq_some (place ▸ stored)
    have after : { reading with stored }.latest held = reached :=
      (stores_latest laterKeyed present).unique found
        ((slot_latest laterKeyed held).trans place.symm)
    rw [before, after]
  · have unwritten := overwritten.apart (reading.schema.slot held)
      fun reached reaches place => written ⟨reached, reaches, place⟩
    simp only [latest, unwritten]

/-- An answer that was not written is made of what is cached, the same as before, of reads of
entities of types that its own contains by value, and of the entities that its containers show. -/
theorem valueOf_of_apart (sound : reading.schema.Sound) (canonical : reading.Canonical)
    (typed : ∀ slot cell, reading.stored slot = some cell →
      Typed reading.schema (.entity slot.type) cell.value)
    (finds : ∀ reached, reading.schema.Reaches entity reached → reading.Finds reached)
    (versions : ∀ reached, reading.schema.Reaches entity reached →
      reading.OneVersion (reading.schema.slot reached))
    (known : reading.schema.Known slot.type)
    (apart : ∀ reached, reading.schema.Reaches entity reached → reading.schema.slot reached ≠ slot)
    (direct : ∀ inner, reading.schema.Embeds slot.type inner →
      ∀ id, { reading with stored }.valueOf ⟨inner, id⟩ = reading.valueOf ⟨inner, id⟩) :
    { reading with stored }.valueOf slot = reading.valueOf slot := by
  have laterSound : { reading with stored }.schema.Sound := sound
  have unwritten := overwritten.apart slot apart
  cases hit : reading.stored slot with
  | none =>
    have missing : { reading with stored }.get slot = some none :=
      get_of_none laterSound known (unwritten.trans hit)
    rw [valueOf, valueOf, missing, get_of_none sound known hit]
  | some cached =>
    have cachedTyped := typed slot cached hit
    have before := valueOf_of_stored sound canonical.keyed cachedTyped hit
    have after : { reading with stored }.valueOf slot =
        some ({ reading with stored }.renewed slot.type cached) :=
      valueOf_of_stored laterSound overwritten.canonical.keyed cachedTyped (unwritten.trans hit)
    have answers : reading.Answers ⟨slot.type, reading.renewed slot.type cached⟩ :=
      answers_iff.mpr ⟨known, slot.id, before⟩
    rw [before, after]
    refine congrArg some (renewed_congr cachedTyped ?_ ?_)
    · exact fun held holds => direct held.type holds.embeds _
    · intro held _ shown
      refine overwritten.latest_eq canonical.keyed finds fun reached reaches place => ?_
      exact versions reached reaches _ _ answers shown
        ((slot_latest canonical.keyed held).trans place.symm)

/-- No answer changes if what a read finds is written, and all that it reaches has one version. By
induction on types, since an answer is made of reads of entities of types that its own contains. -/
theorem valueOf_eq (sound : reading.schema.Sound) (canonical : reading.Canonical)
    (typed : ∀ slot cell, reading.stored slot = some cell →
      Typed reading.schema (.entity slot.type) cell.value)
    (known : reading.schema.Known entity.type) (finds : reading.Finds entity)
    (versions : ∀ reached, reading.schema.Reaches entity reached →
      reading.OneVersion (reading.schema.slot reached))
    (slot : Slot) (slotKnown : reading.schema.Known slot.type) :
    { reading with stored }.valueOf slot = reading.valueOf slot := by
  have found : ∀ reached, reading.schema.Reaches entity reached →
      reading.schema.Known reached.type ∧ reading.Finds reached := fun reached reaches =>
    canonical.finds_of_reaches sound known finds versions reaches
  refine sound.induction (motive := fun type => ∀ id,
    { reading with stored }.valueOf ⟨type, id⟩ = reading.valueOf ⟨type, id⟩) ?_ slotKnown slot.id
  intro type typeKnown ih id
  by_cases written : ∃ reached, reading.schema.Reaches entity reached ∧
      reading.schema.slot reached = ⟨type, id⟩
  · obtain ⟨reached, reaches, place⟩ := written
    obtain ⟨reachedKnown, before⟩ := found reached reaches
    rw [← place, overwritten.valueOf_of_reaches sound reachedKnown reaches, finds_iff.mp before]
  · exact overwritten.valueOf_of_apart sound canonical typed
      (fun reached reaches => (found reached reaches).2) versions typeKnown
      (fun reached reaches place => written ⟨reached, reaches, place⟩) ih

/-- If no answer changes then each entity that was written had one version. -/
theorem oneVersion_of_valueOf_eq (sound : reading.schema.Sound)
    (same : ∀ slot, reading.schema.Known slot.type →
      { reading with stored }.valueOf slot = reading.valueOf slot)
    (reaches : reading.schema.Reaches entity reached) :
    reading.OneVersion (reading.schema.slot reached) := by
  intro owner held answers shown place
  obtain ⟨ownerKnown, id, before⟩ := answers_iff.mp answers
  have after : { reading with stored }.Answers owner :=
    answers_iff.mpr ⟨ownerKnown, id, (same ⟨owner.type, id⟩ ownerKnown).trans before⟩
  have kept : { reading with stored }.Stores held :=
    overwritten.canonical.contained owner after held shown
  obtain rfl : held = reached := kept.unique (overwritten.stores reached reaches) place
  have heldKnown : reading.schema.Known held.type := sound.known_of_refers (.inr shown)
  rw [finds_iff, ← same _ heldKnown]
  exact overwritten.valueOf_of_reaches sound heldKnown reaches

end Overwritten
end Reading

namespace Repository

variable {schema : Schema} {world : World} {store : Nat} {entity : EntityValue}

theorem Intact.canonical (intact : Intact schema world store) (sound : schema.Sound)
    (iteration : Nat → Iteration) :
    ((Repository.mk [store] [store]).reading schema iteration world).Canonical := by
  have read : ∀ slot, (Repository.mk [store] [store]).read world slot = world.get store slot :=
    read_single world store [store]
  refine Reading.canonical_of_closed sound ?_ ?_
  · exact fun slot cell stored => intact.keyed slot cell ((read slot).symm.trans stored)
  · intro slot cell stored held refers
    have present := intact.closed slot cell ((read slot).symm.trans stored) held refers
    exact (congrArg Option.isSome (read (schema.slot held))).trans present

/-- A put of a consistent entity overwrites just what it reaches. -/
theorem Intact.overwritten_put (intact : Intact schema world store) (sound : schema.Sound)
    (consistent : schema.Consistent entity) (order : Iteration) (iteration : Nat → Iteration) :
    let repository : Repository := ⟨[store], [store]⟩
    let after := (((repository.storing schema order).putEntity entity).run world).2
    (repository.reading schema iteration world).Overwritten entity (repository.read after) := by
  intro repository after
  refine ⟨(intact.put order entity).canonical sound iteration, ?_, ?_⟩
  · exact fun reached reaches => stores_of_put consistent intact.bound order iteration reaches
  · intro slot apart
    have kept : after.get store slot = world.get store slot := by
      simp only [after, Storing.world_putEntity]
      exact World.get_putAll_of_apart _ fun _ reached member =>
        apart reached ((Schema.mem_entities order).mp member)
    rw [read_single, kept]
    exact (read_single world store [store] slot).symm

/-- What a default repository stores is an entity of its type. -/
theorem typed_run (world : World) (puts : List (Iteration × EntityValue))
    (typed : ∀ put ∈ puts, Typed schema (.entity put.2.type) put.2.value) (slot : Slot) (cell : Cell) :
    let built := Repository.build world [] []
    (built.2.run schema puts built.1).get world.stores.length slot = some cell →
      Typed schema (.entity slot.type) cell.value := by
  intro built stored
  have value : some cell.value =
      (schema.lastAt slot (schema.written puts)).map EntityValue.value := by
    rw [← value_run_build schema world puts slot, stored, Option.map_some]
  obtain ⟨last, found, same⟩ := Option.map_eq_some_iff.mp value.symm
  obtain ⟨member, rfl⟩ := Schema.mem_of_lastAt found
  obtain ⟨put, inside, reaches⟩ := Schema.mem_written.mp member
  exact same ▸ (typed put inside).ofReaches reaches

/-- After any puts into a default repository: what was read holds one version of each entity and
putting it back changes no answer, if and only if all that answers have in containers for the
entities that it reaches is what reads of these find. -/
theorem write_back_iff (sound : schema.Sound) (world : World)
    (puts : List (Iteration × EntityValue))
    (typed : ∀ put ∈ puts, Typed schema (.entity put.2.type) put.2.value)
    (iteration : Nat → Iteration) (order : Iteration) :
    let built := Repository.build world [] []
    let before := built.2.run schema puts built.1
    let reading := built.2.reading schema iteration before
    reading.get slot = some (some found) →
      let entity : EntityValue := ⟨slot.type, found.value⟩
      let after := (((built.2.storing schema order).putEntity entity).run before).2
      (schema.Consistent entity ∧ reading.AnswerAlike (built.2.reading schema iteration after) ↔
        ∀ reached, schema.Reaches entity reached → reading.OneVersion (schema.slot reached)) := by
  intro built before reading answer entity after
  have intact : Intact schema before world.stores.length := (intact_build schema world).run puts
  have canonical : reading.Canonical := intact.canonical sound iteration
  have wellTyped : ∀ slot cell, reading.stored slot = some cell →
      Typed schema (.entity slot.type) cell.value := by
    intro slot cell stored
    have read := read_single before world.stores.length built.2.writers slot
    exact typed_run world puts typed slot cell (read.symm.trans stored)
  obtain ⟨cached, hit⟩ := Reading.stored_of_get answer
  have known : reading.schema.Known entity.type := (wellTyped slot cached hit).known
  have finds : reading.Finds entity := by
    have place : schema.slot entity = slot := Reading.slot_get sound canonical.keyed known answer
    exact ⟨found, (congrArg reading.get place).trans answer, rfl⟩
  constructor
  · rintro ⟨consistent, alike⟩ reached reaches
    have overwritten := intact.overwritten_put sound consistent order iteration
    exact overwritten.oneVersion_of_valueOf_eq sound ((Reading.answerAlike_iff sound).mp alike) reaches
  · intro versions
    have all : ∀ reached, schema.Reaches entity reached → reading.Finds reached :=
      fun reached reaches => (canonical.finds_of_reaches sound known finds versions reaches).2
    have consistent : schema.Consistent entity := fun a b reachesA reachesB =>
      (all a reachesA).unique (all b reachesB)
    have overwritten := intact.overwritten_put sound consistent order iteration
    refine ⟨consistent, (Reading.answerAlike_iff sound).mpr ?_⟩
    exact overwritten.valueOf_eq sound canonical wellTyped known finds versions

end Repository

/-- A team of a person has an older version of a member than is stored. To put back this person, who
is read as it is stored, makes the older version the stored one. -/
theorem Club.older_member_written_back :
    let built := Repository.build {} [] []
    let carol : EntityValue := ⟨person,
      .seq [.text "carol", .seq [.seq [.int 1, .seq [.seq [.text "ada", .seq []]]]]]⟩
    let ada : EntityValue := ⟨person, .seq [.text "ada", .seq [.seq [.int 2, .seq []]]]⟩
    let before := built.2.run schema [(Iteration.sorted, carol), (Iteration.sorted, ada)] built.1
    let after := (((built.2.storing schema Iteration.sorted).putEntity carol).run before).2
    let reading := built.2.reading schema (fun _ => Iteration.sorted) before
    let later := built.2.reading schema (fun _ => Iteration.sorted) after
    reading.get ⟨person, .text "carol"⟩ = some (some (.stored ⟨0, carol.value⟩)) ∧
      reading.valueOf ⟨person, .text "ada"⟩ = some ada.value ∧
      later.valueOf ⟨person, .text "ada"⟩ = some (.seq [.text "ada", .seq []]) ∧
      later.valueOf ⟨person, .text "ada"⟩ ≠ reading.valueOf ⟨person, .text "ada"⟩ := by
  decide

theorem Album.tag_of_holdsInContainer (contained : schema.HoldsInContainer owner held) :
    held.type = tag := by
  obtain ⟨member, -, holds⟩ := contained
  obtain ⟨entity, found, inside⟩ := Schema.mem_properties (List.of_mem_zip member).1
  have target : held.type ∈
      (schema.flatMap EntitySchema.properties).flatMap ResolvedType.targets :=
    List.mem_flatMap.mpr ⟨_, List.mem_flatMap.mpr ⟨entity, (Schema.mem_of_find? found).1, inside⟩,
      holds.mem_targets⟩
  simpa [schema, number, ResolvedType.targets] using target

/-- An album is read with a newer version of its tag, and is put back. -/
theorem Album.album_written_back :
    let built := Repository.build {} [] []
    let cached : EntityValue := ⟨album, albumValue 1 (tagValue 7 0) [(tagValue 7 0, .int 10)]⟩
    let found : EntityValue := ⟨album, albumValue 1 (tagValue 7 5) [(tagValue 7 5, .int 10)]⟩
    let puts := [(Iteration.sorted, cached), (Iteration.sorted, EntityValue.mk tag (tagValue 7 5))]
    let before := built.2.run schema puts built.1
    let after := (((built.2.storing schema Iteration.sorted).putEntity found).run before).2
    let reading := built.2.reading schema (fun _ => Iteration.sorted) before
    reading.get ⟨album, .int 1⟩ = some (some (.rebuilt found.value)) ∧
      schema.Consistent found ∧
      reading.AnswerAlike (built.2.reading schema (fun _ => Iteration.sorted) after) := by
  intro built cached found puts before after reading
  have answer : reading.get ⟨album, .int 1⟩ = some (some (.rebuilt found.value)) := by decide
  have typed : ∀ put ∈ puts, Typed schema (.entity put.2.type) put.2.value := by
    have keys : ∀ pair ∈ [(tagValue 7 0, Value.int 10)], Typed schema (.entity tag) pair.1 := by
      simpa using typed_tag 7 0
    simp only [puts, List.forall_mem_cons]
    exact ⟨typed_album 1 (typed_tag 7 0) (List.pairwise_singleton _ _) keys, typed_tag 7 5, by simp⟩
  refine ⟨answer, (Repository.write_back_iff sound {} puts typed (fun _ => Iteration.sorted)
    Iteration.sorted answer).mpr fun reached reaches => ?_⟩
  have canonical : reading.Canonical :=
    ((Repository.intact_build schema {}).run puts).canonical sound _
  have listed := (Schema.mem_entities Iteration.sorted).mpr reaches
  -- Tags are stored as they are read, and nothing holds the album.
  have fresh : ∀ entity ∈ schema.entities Iteration.sorted found, entity.type = tag →
      reading.valueOf (schema.slot entity) =
        (reading.stored (schema.slot entity)).map Cell.value := by decide
  by_cases isTag : reached.type = tag
  · exact canonical.oneVersion (fresh reached listed isTag)
  · intro owner held _ contained place
    exact absurd ((congrArg Slot.type place).symm.trans (tag_of_holdsInContainer contained)) isTag

end EntityGen
