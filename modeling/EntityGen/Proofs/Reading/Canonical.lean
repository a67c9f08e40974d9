import EntityGen.Proofs.Reading.Answers
import EntityGen.Proofs.Storing.Reachable

/-! What is read from a repository that only puts have written to. All that is held by a stored
entity is stored, since a put stores whatever it reaches; so what is read holds each entity as it
is read or stored by itself. -/
namespace EntityGen

namespace Reading

def Closed (reading : Reading) : Prop := ∀ slot cell, reading.stored slot = some cell →
  ∀ held, reading.schema.Refers ⟨slot.type, cell.value⟩ held →
    (reading.stored (reading.schema.slot held)).isSome

def Finds (reading : Reading) (entity : EntityValue) : Prop :=
  ∃ found, reading.get (reading.schema.slot entity) = some (some found) ∧ found.value = entity.value

/-- A read answers with an entity of a type of the schema. -/
def Answers (reading : Reading) (entity : EntityValue) : Prop :=
  reading.schema.Known entity.type ∧
    ∃ id found, reading.get ⟨entity.type, id⟩ = some (some found) ∧ found.value = entity.value

/-- Whatever is read holds the versions of other entities that are read or stored. -/
structure Canonical (reading : Reading) : Prop where
  keyed : reading.Keyed
  closed : reading.Closed
  direct : ∀ entity, reading.Answers entity → ∀ held, reading.schema.HoldsDirectly entity held →
    reading.Finds held
  contained : ∀ entity, reading.Answers entity →
    ∀ held, reading.schema.HoldsInContainer entity held → reading.Stores held
  directAgree : ∀ a b, reading.Answers a → reading.Answers b →
    ∀ x y, reading.schema.HoldsDirectly a x → reading.schema.HoldsDirectly b y →
      reading.schema.slot x = reading.schema.slot y → x = y
  containedAgree : ∀ a b, reading.Answers a → reading.Answers b →
    ∀ x y, reading.schema.HoldsInContainer a x → reading.schema.HoldsInContainer b y →
      reading.schema.slot x = reading.schema.slot y → x = y

variable {reading : Reading} {entity held : EntityValue}

theorem finds_iff : reading.Finds held ↔
    reading.valueOf (reading.schema.slot held) = some held.value := by
  simp [Finds, valueOf, Option.join_eq_some_iff]

theorem Finds.unique {a b : EntityValue} (first : reading.Finds a) (second : reading.Finds b)
    (same : reading.schema.slot a = reading.schema.slot b) : a = b := by
  rw [finds_iff] at first second
  rw [same] at first
  exact Schema.eq_of_slot_eq same (Option.some.inj (first.symm.trans second))

theorem Stores.unique {a b : EntityValue} (first : reading.Stores a) (second : reading.Stores b)
    (same : reading.schema.slot a = reading.schema.slot b) : a = b := by
  obtain ⟨cell, stored, value⟩ := first
  obtain ⟨other, found, equal⟩ := second
  rw [same] at stored
  obtain rfl := Option.some.inj (stored.symm.trans found)
  exact Schema.eq_of_slot_eq same (value.symm.trans equal)

/-- What is found for an entity that is stored. -/
theorem finds_valueOf (sound : reading.schema.Sound) (keyed : reading.Keyed)
    (known : reading.schema.Known held.type)
    (stored : (reading.stored (reading.schema.slot held)).isSome) :
    ∃ latest, reading.valueOf (reading.schema.slot held) = some latest ∧
      reading.Finds ⟨held.type, latest⟩ := by
  have found : (reading.valueOf (reading.schema.slot held)).isSome :=
    valueOf_isSome sound known stored
  obtain ⟨latest, value⟩ := Option.isSome_iff_exists.mp found
  obtain ⟨found, answer, rfl⟩ : ∃ found,
      reading.get (reading.schema.slot held) = some (some found) ∧ found.value = latest := by
    simpa [valueOf, Option.join_eq_some_iff] using value
  have same : reading.schema.slot ⟨held.type, found.value⟩ = reading.schema.slot held :=
    slot_get sound keyed known answer
  refine ⟨found.value, value, found, ?_, rfl⟩
  exact same ▸ answer

theorem stores_latest (keyed : reading.Keyed)
    (stored : (reading.stored (reading.schema.slot held)).isSome) :
    reading.Stores (reading.latest held) := by
  obtain ⟨cell, stored⟩ := Option.isSome_iff_exists.mp stored
  exact ⟨cell, by rw [slot_latest keyed, stored], by simp [latest, stored]⟩

/-- An entity that a read has answered with is a stored one, or one that was rebuilt. -/
theorem Answers.origin (sound : reading.schema.Sound) (answers : reading.Answers entity) :
    ∃ id cached, reading.stored ⟨entity.type, id⟩ = some cached ∧
      (entity.value = cached.value ∧ reading.UpToDate entity ∨
        entity.value = reading.renewed entity.type cached) := by
  obtain ⟨known, id, found, answer, value⟩ := answers
  cases stored : reading.stored ⟨entity.type, id⟩ with
  | none =>
    rw [get_of_none sound known stored] at answer
    cases answer
  | some cached =>
    obtain ⟨dirty, result, clean⟩ := get_of_stored sound known stored
    obtain rfl := Option.some.inj (Option.some.inj (answer.symm.trans result))
    refine ⟨id, cached, stored, ?_⟩
    cases dirty with
    | false =>
      have same : entity.value = cached.value := value.symm
      have fresh := clean.mp rfl
      rw [← same] at fresh
      exact .inl ⟨same, fresh⟩
    | true => exact .inr value.symm

theorem finds_of_holdsDirectly (sound : reading.schema.Sound) (keyed : reading.Keyed)
    (closed : reading.Closed) (answers : reading.Answers entity)
    (direct : reading.schema.HoldsDirectly entity held) : reading.Finds held := by
  obtain ⟨id, cached, stored, ⟨same, fresh⟩ | rebuilt⟩ := answers.origin sound
  · have refers : reading.schema.Refers entity held := .inl direct
    obtain ⟨latest, value, finds⟩ := finds_valueOf sound keyed (sound.known_of_refers refers)
      (closed _ _ stored held (same ▸ refers))
    rwa [fresh.direct held direct latest value] at finds
  · obtain ⟨type, value⟩ := entity
    have rebuilt : value = reading.renewed type cached := rebuilt
    subst rebuilt
    obtain ⟨original, inside, rfl⟩ := holdsDirectly_renewed direct
    have refers : reading.schema.Refers ⟨type, cached.value⟩ original := .inl inside
    obtain ⟨latest, value, finds⟩ := finds_valueOf sound keyed (sound.known_of_refers refers)
      (closed _ _ stored original refers)
    rwa [value]

theorem stores_of_holdsInContainer (sound : reading.schema.Sound) (keyed : reading.Keyed)
    (closed : reading.Closed) (answers : reading.Answers entity)
    (contained : reading.schema.HoldsInContainer entity held) : reading.Stores held := by
  obtain ⟨id, cached, stored, ⟨same, fresh⟩ | rebuilt⟩ := answers.origin sound
  · have present := closed _ _ stored held (same ▸ .inr contained)
    have settled := latest_of_settled (fresh.contained held contained)
    exact settled ▸ stores_latest keyed present
  · obtain ⟨type, value⟩ := entity
    have rebuilt : value = reading.renewed type cached := rebuilt
    subst rebuilt
    obtain ⟨original, inside, rfl⟩ := holdsInContainer_renewed contained
    exact stores_latest keyed (closed _ _ stored original (.inr inside))

theorem canonical_of_closed (sound : reading.schema.Sound) (keyed : reading.Keyed)
    (closed : reading.Closed) : reading.Canonical where
  keyed := keyed
  closed := closed
  direct _ answers _ direct := finds_of_holdsDirectly sound keyed closed answers direct
  contained _ answers _ contained :=
    stores_of_holdsInContainer sound keyed closed answers contained
  directAgree _ _ first second _ _ x y same :=
    (finds_of_holdsDirectly sound keyed closed first x).unique
      (finds_of_holdsDirectly sound keyed closed second y) same
  containedAgree _ _ first second _ _ x y same :=
    (stores_of_holdsInContainer sound keyed closed first x).unique
      (stores_of_holdsInContainer sound keyed closed second y) same

end Reading

namespace Repository

variable {schema : Schema} {world : World} {store : Nat} {entity : EntityValue}

/-- What holds of a store that only puts write to: each entity is in its own slot, and all that it
holds is stored. -/
structure Intact (schema : Schema) (world : World) (store : Nat) : Prop where
  bound : store < world.stores.length
  keyed : ∀ slot cell, world.get store slot = some cell →
    schema.slot ⟨slot.type, cell.value⟩ = slot
  closed : ∀ slot cell, world.get store slot = some cell →
    ∀ held, schema.Refers ⟨slot.type, cell.value⟩ held → (world.get store (schema.slot held)).isSome

theorem Intact.put (intact : Intact schema world store) (order : Iteration)
    (entity : EntityValue) : Intact schema
      ((((Repository.mk [store] [store]).storing schema order).putEntity entity).run world).2
      store := by
  have target : store ∈ ((Repository.mk [store] [store]).storing schema order).writers :=
    List.mem_singleton_self store
  refine ⟨?_, ?_, ?_⟩
  · rw [Storing.world_putEntity, World.length_putAll]
    exact intact.bound
  · intro slot cell stored
    rcases Storing.origin_of_get target intact.bound stored with ⟨-, place⟩ | ⟨old, before, same⟩
    · exact place
    · exact same ▸ intact.keyed slot old before
  · intro slot cell stored held refers
    rcases Storing.origin_of_get target intact.bound stored with ⟨reaches, -⟩ | ⟨old, before, same⟩
    · obtain ⟨found, -, stored, -⟩ :=
        Storing.get_of_reaches target intact.bound (reaches.tail refers)
      exact Option.isSome_of_eq_some stored
    · exact Storing.get_isSome_of_get target intact.bound
        (intact.closed slot old before held (same ▸ refers))

def run (repository : Repository) (schema : Schema) (puts : List (Iteration × EntityValue))
    (world : World) : World :=
  puts.foldl (fun world put =>
    (((repository.storing schema put.1).putEntity put.2).run world).2) world

theorem Intact.run (intact : Intact schema world store) (puts : List (Iteration × EntityValue)) :
    Intact schema ((Repository.mk [store] [store]).run schema puts world) store := by
  induction puts generalizing world with
  | nil => exact intact
  | cons first rest ih => exact ih (intact.put first.1 first.2)

/-- The store of a default repository is a new one. -/
theorem intact_build (schema : Schema) (world : World) :
    Intact schema (Repository.build world [] []).1 world.stores.length := by
  have nothing : ∀ slot, (Repository.build world [] []).1.get world.stores.length slot = none := by
    intro slot
    rw [World.get_build, World.get, List.getElem?_eq_none (Nat.le_refl _), Option.bind_none]
  refine ⟨by simp [build], ?_, ?_⟩
  · intro slot cell stored
    rw [nothing] at stored
    cases stored
  · intro slot cell stored
    rw [nothing] at stored
    cases stored

/-- After any puts into a default repository, whatever is read is canonical. -/
theorem canonical_run (sound : schema.Sound) (world : World)
    (puts : List (Iteration × EntityValue)) (iteration : Nat → Iteration) :
    let built := Repository.build world [] []
    (built.2.reading schema iteration (built.2.run schema puts built.1)).Canonical := by
  intro built
  have intact := (intact_build schema world).run puts
  have read : ∀ slot, built.2.read (built.2.run schema puts built.1) slot =
      (built.2.run schema puts built.1).get world.stores.length slot := by
    intro slot
    exact read_single ..
  refine Reading.canonical_of_closed sound ?_ ?_
  · intro slot cell stored
    exact intact.keyed slot cell ((read slot).symm.trans stored)
  · intro slot cell stored held refers
    have present := intact.closed slot cell ((read slot).symm.trans stored) held refers
    exact (congrArg Option.isSome (read (schema.slot held))).trans present

end Repository

/-- Two albums are put with different colors of one tag, and are both read with the later one. -/
theorem Album.canonical_albums :
    let built := Repository.build {} [] []
    let puts := [(Iteration.sorted, EntityValue.mk album (albumValue 1 (tagValue 7 0) [])),
      (Iteration.sorted, EntityValue.mk album (albumValue 2 (tagValue 7 5) []))]
    let reading := built.2.reading schema (fun _ => Iteration.sorted)
      (built.2.run schema puts built.1)
    reading.Canonical ∧
      reading.valueOf ⟨album, .int 1⟩ = some (albumValue 1 (tagValue 7 5) []) ∧
      reading.valueOf ⟨album, .int 2⟩ = some (albumValue 2 (tagValue 7 5) []) := by
  intro built puts reading
  have canonical : reading.Canonical :=
    Repository.canonical_run sound {} puts fun _ => Iteration.sorted
  exact ⟨canonical, by decide, by decide⟩

end EntityGen
