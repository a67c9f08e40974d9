import EntityGen.Proofs.Reading.Recursion

/-! The answer of a read. It is the stored value itself if all that the entity holds is up to date,
and else the entity in which each property is renewed. -/
namespace EntityGen.Reading

def valueOf (reading : Reading) (slot : Slot) : Option Value :=
  (reading.get slot).join.map Found.value

/-- Properties rebuilt whether or not anything has changed: entities that are held directly are
read again, and those in containers are taken as they are stored. -/
def renewFields (reading : Reading) (iteration : Iteration) :
    List ResolvedType → List Value → List Value
  | .entity type :: types, value :: values =>
    (reading.valueOf (reading.schema.slot ⟨type, value⟩)).getD value ::
      renewFields reading (iteration.within 1) types values
  | type :: types, value :: values =>
    reading.renew (iteration.within 0) type value ::
      renewFields reading (iteration.within 1) types values
  | _, _ => []

def renewed (reading : Reading) (type : EntityType) (cached : Cell) : Value :=
  match cached.value with
  | .seq fields => .seq (reading.renewFields (reading.iteration cached.tag)
      (reading.schema.properties type) fields)
  | value => value

/-- A property is up to date: a read of the entity that it is finds just this, or the entities in
its container are as they are stored. -/
def Current (reading : Reading) : ResolvedType → Value → Prop
  | .entity type, value => ∀ latest,
    reading.valueOf (reading.schema.slot ⟨type, value⟩) = some latest → latest = value
  | type, value => ∀ held, Holds type value held → reading.Settled held

structure UpToDate (reading : Reading) (entity : EntityValue) : Prop where
  direct : ∀ held, reading.schema.HoldsDirectly entity held →
    ∀ latest, reading.valueOf (reading.schema.slot held) = some latest → latest = held.value
  contained : ∀ held, reading.schema.HoldsInContainer entity held → reading.Settled held

variable {reading : Reading} {iteration : Iteration}

theorem current_of_plain (plain : ∀ target, type ≠ .entity target) :
    reading.Current type value ↔ ∀ held, Holds type value held → reading.Settled held := by
  cases type with
  | entity target => exact absurd rfl (plain target)
  | _ => rfl

theorem upToDate_seq : reading.UpToDate ⟨type, .seq fields⟩ ↔
    ∀ property value, (property, value) ∈ (reading.schema.properties type).zip fields →
      reading.Current property value := by
  constructor
  · rintro ⟨direct, contained⟩ property value member
    cases property with
    | entity target => exact direct _ (.property member)
    | _ => exact fun held holds => contained held (.property member (by simp) holds)
  · intro fieldwise
    constructor
    · rintro held ⟨member⟩
      exact fieldwise _ _ member
    · rintro held ⟨member, plain, holds⟩
      exact (current_of_plain plain).mp (fieldwise _ _ member) held holds

theorem renewed_of_seq (whole : cached.value = .seq fields) : reading.renewed type cached =
    .seq (reading.renewFields (reading.iteration cached.tag) (reading.schema.properties type)
      fields) := by
  simp only [renewed, whole]

theorem renewed_of_atom (atom : ∀ fields, cached.value ≠ .seq fields) :
    reading.renewed type cached = cached.value := by
  unfold renewed
  split
  next fields whole => exact absurd whole (atom fields)
  next => rfl

theorem refresh_fst (done : reading.refresh reading.get iteration types values = some states) :
    states.map Prod.fst = reading.renewFields iteration types values := by
  fun_induction renewFields reading iteration types values generalizing states with
  | case1 iteration type types value values ih =>
    simp only [refresh, Option.bind_eq_bind, Option.bind_eq_some_iff] at done
    obtain ⟨latest, found, rest, refreshed, same⟩ := done
    obtain rfl := Option.some.inj same
    simp [ih refreshed, reconcile_fst, valueOf, found]
  | case2 iteration type types value values plain ih =>
    simp only [refresh, Option.bind_eq_bind, Option.bind_eq_some_iff] at done
    obtain ⟨rest, refreshed, same⟩ := done
    obtain rfl := Option.some.inj same
    simp [ih refreshed, rebuild_fst]
  | case3 types iteration values noEntity noOther =>
    rw [refresh] at done
    · obtain rfl := Option.some.inj done
      rfl
    · exact noEntity
    · exact noOther

/-- No change is reported if and only if each property is up to date. -/
theorem refresh_clean_iff
    (done : reading.refresh reading.get iteration types values = some states) :
    states.any Prod.snd = false ↔
      ∀ type value, (type, value) ∈ types.zip values → reading.Current type value := by
  fun_induction renewFields reading iteration types values generalizing states with
  | case1 iteration type types value values ih =>
    simp only [refresh, Option.bind_eq_bind, Option.bind_eq_some_iff] at done
    obtain ⟨latest, found, rest, refreshed, same⟩ := done
    obtain rfl := Option.some.inj same
    have first : (reconcile value (latest.map Found.value)).2 = false ↔
        reading.Current (.entity type) value := by
      simp [reconcile_clean_iff, Current, valueOf, found]
    rw [List.any_cons, Bool.or_eq_false_iff, first, ih refreshed]
    simp [forall_and, or_imp]
  | case2 iteration type types value values plain ih =>
    simp only [refresh, Option.bind_eq_bind, Option.bind_eq_some_iff] at done
    obtain ⟨rest, refreshed, same⟩ := done
    obtain rfl := Option.some.inj same
    have first : (reading.rebuild (iteration.within 0) type value).2 = false ↔
        reading.Current type value := by
      rw [rebuild_clean_iff, current_of_plain plain]
    rw [List.any_cons, Bool.or_eq_false_iff, first, ih refreshed]
    simp [forall_and, or_imp]
  | case3 types iteration values noEntity noOther =>
    rw [refresh] at done
    · obtain rfl := Option.some.inj done
      refine iff_of_true rfl fun type value member => ?_
      rcases nil_or_nil_of_end noOther with rfl | rfl <;> simp at member
    · exact noEntity
    · exact noOther

/-- The answer for what is stored. -/
theorem current_spec (answer : reading.current reading.get type cached = some found) :
    ∃ dirty, found = (if dirty then .rebuilt (reading.renewed type cached) else .stored cached) ∧
      (dirty = false ↔ reading.UpToDate ⟨type, cached.value⟩) := by
  unfold current at answer
  split at answer
  next fields whole =>
    obtain ⟨states, refreshed, same⟩ := Option.map_eq_some_iff.mp answer
    refine ⟨states.any Prod.snd, ?_, ?_⟩
    · rw [renewed_of_seq whole, ← same, ← refresh_fst refreshed]
    · rw [whole, upToDate_seq, refresh_clean_iff refreshed]
  next atom =>
    refine ⟨false, (Option.some.inj answer).symm, iff_of_true rfl ⟨?_, ?_⟩⟩
    · intro held direct
      obtain ⟨fields, whole, _⟩ := Schema.refers_iff.mp (.inl direct)
      exact (atom fields whole).elim
    · intro held contained
      obtain ⟨fields, whole, _⟩ := Schema.refers_iff.mp (.inr contained)
      exact (atom fields whole).elim

theorem get_of_none (sound : reading.schema.Sound) (known : reading.schema.Known slot.type)
    (nothing : reading.stored slot = none) : reading.get slot = some none := by
  rw [get_eq sound known, nothing]

/-- The answer of a read that finds something stored. -/
theorem get_of_stored (sound : reading.schema.Sound) (known : reading.schema.Known slot.type)
    (stored : reading.stored slot = some cached) :
    ∃ dirty, reading.get slot = some (some
        (if dirty then .rebuilt (reading.renewed slot.type cached) else .stored cached)) ∧
      (dirty = false ↔ reading.UpToDate ⟨slot.type, cached.value⟩) := by
  obtain ⟨answer, done⟩ := Option.isSome_iff_exists.mp (get_isSome sound known)
  have equation := get_eq sound known
  rw [stored, done] at equation
  obtain ⟨found, current, rfl⟩ := Option.map_eq_some_iff.mp equation.symm
  obtain ⟨dirty, rfl, clean⟩ := current_spec current
  exact ⟨dirty, done, clean⟩

theorem valueOf_isSome (sound : reading.schema.Sound) (known : reading.schema.Known slot.type)
    (stored : (reading.stored slot).isSome) : (reading.valueOf slot).isSome := by
  obtain ⟨cached, stored⟩ := Option.isSome_iff_exists.mp stored
  obtain ⟨dirty, answer, -⟩ := get_of_stored sound known stored
  simp [valueOf, answer]

/-- Properties that hold no entities are not changed. -/
theorem getElem?_renewFields (iteration : Iteration) {types : List ResolvedType} {i : Nat}
    (property : types[i]? = some type) (plain : type.holdsEntities = false) (values : List Value) :
    (reading.renewFields iteration types values)[i]? = values[i]? := by
  fun_induction renewFields reading iteration types values generalizing i with
  | case1 iteration target types value values ih =>
    cases i with
    | zero =>
      obtain rfl := Option.some.inj property
      cases plain
    | succ i => exact ih property
  | case2 iteration first types value values other ih =>
    cases i with
    | zero =>
      obtain rfl : first = type := Option.some.inj property
      have same : reading.renew (iteration.within 0) first value = value := renew_of_plain plain _ _
      simp [same]
    | succ i => exact ih property
  | case3 types iteration values noEntity noOther =>
    rcases nil_or_nil_of_end noOther with rfl | rfl
    · cases property
    · rfl

/-- A rebuilt entity has the id of the one that it replaces. -/
theorem slot_renewed (sound : reading.schema.Sound) (type : EntityType) (cached : Cell) :
    reading.schema.slot ⟨type, reading.renewed type cached⟩ =
      reading.schema.slot ⟨type, cached.value⟩ := by
  by_cases whole : ∃ fields, cached.value = .seq fields
  · obtain ⟨fields, whole⟩ := whole
    rw [renewed_of_seq whole, whole]
    unfold Schema.slot Schema.idOf
    cases found : reading.schema.find? type with
    | none => rfl
    | some entity =>
      have plain := sound.plainId entity (Schema.mem_of_find? found).1
      have property : (reading.schema.properties type)[entity.id.val]? =
          some entity.properties[entity.id] := by
        rw [Schema.properties_of_find? found]
        exact List.getElem?_eq_getElem entity.id.isLt
      simp only [getElem?_renewFields _ property plain]
  · rw [renewed_of_atom fun fields equal => whole ⟨fields, equal⟩]

/-- What a read finds has the type and the id that were asked for. -/
theorem slot_get (sound : reading.schema.Sound) (keyed : reading.Keyed)
    (known : reading.schema.Known slot.type) (answer : reading.get slot = some (some found)) :
    reading.schema.slot ⟨slot.type, found.value⟩ = slot := by
  cases stored : reading.stored slot with
  | none =>
    rw [get_of_none sound known stored] at answer
    cases answer
  | some cached =>
    obtain ⟨dirty, result, -⟩ := get_of_stored sound known stored
    obtain rfl := Option.some.inj (Option.some.inj (answer.symm.trans result))
    cases dirty with
    | false => exact keyed slot cached stored
    | true => exact (slot_renewed sound slot.type cached).trans (keyed slot cached stored)

/-- Where a renewed property comes from. -/
theorem mem_zip_renewFields {types : List ResolvedType} {values : List Value}
    (member : (property, value) ∈ types.zip (reading.renewFields iteration types values)) :
    ∃ old, (property, old) ∈ types.zip values ∧
      ((∃ target, property = .entity target ∧
        value = (reading.valueOf (reading.schema.slot ⟨target, old⟩)).getD old) ∨
      (∀ target, property ≠ .entity target) ∧ ∃ order, value = reading.renew order property old) := by
  fun_induction renewFields reading iteration types values with
  | case1 iteration target types value values ih =>
    rcases List.mem_cons.mp member with here | later
    · obtain ⟨rfl, rfl⟩ := Prod.mk.inj here
      exact ⟨value, List.mem_cons_self, .inl ⟨target, rfl, rfl⟩⟩
    · obtain ⟨old, inside, origin⟩ := ih later
      exact ⟨old, List.mem_cons_of_mem _ inside, origin⟩
  | case2 iteration type types value values plain ih =>
    rcases List.mem_cons.mp member with here | later
    · obtain ⟨rfl, rfl⟩ := Prod.mk.inj here
      exact ⟨value, List.mem_cons_self, .inr ⟨plain, _, rfl⟩⟩
    · obtain ⟨old, inside, origin⟩ := ih later
      exact ⟨old, List.mem_cons_of_mem _ inside, origin⟩
  | case3 => simp at member

theorem seq_of_refers_renewed
    (refers : reading.schema.Refers ⟨type, reading.renewed type cached⟩ held) :
    ∃ fields, cached.value = .seq fields := by
  obtain ⟨fields, whole, -⟩ := Schema.refers_iff.mp refers
  by_contra atom
  have same : reading.renewed type cached = cached.value :=
    renewed_of_atom fun fields equal => atom ⟨fields, equal⟩
  exact atom ⟨fields, same.symm.trans whole⟩

/-- An entity that a rebuilt one holds directly is what a read finds in place of the cached one. -/
theorem holdsDirectly_renewed
    (direct : reading.schema.HoldsDirectly ⟨type, reading.renewed type cached⟩ held) :
    ∃ original, reading.schema.HoldsDirectly ⟨type, cached.value⟩ original ∧
      held = ⟨original.type,
        (reading.valueOf (reading.schema.slot original)).getD original.value⟩ := by
  obtain ⟨fields, whole⟩ := seq_of_refers_renewed (.inl direct)
  rw [renewed_of_seq whole] at direct
  obtain ⟨member⟩ := direct
  obtain ⟨old, inside, ⟨target, same, new⟩ | ⟨plain, -⟩⟩ := mem_zip_renewFields member
  · obtain rfl := ResolvedType.entity.inj same
    rw [whole]
    exact ⟨⟨_, old⟩, .property inside, by rw [new]⟩
  · exact absurd rfl (plain _)

/-- An entity in a container of a rebuilt one is the latest version of one in the cached one. -/
theorem holdsInContainer_renewed
    (contained : reading.schema.HoldsInContainer ⟨type, reading.renewed type cached⟩ held) :
    ∃ original, reading.schema.HoldsInContainer ⟨type, cached.value⟩ original ∧
      held = reading.latest original := by
  obtain ⟨fields, whole⟩ := seq_of_refers_renewed (.inr contained)
  rw [renewed_of_seq whole] at contained
  obtain ⟨member, plain, holds⟩ := contained
  obtain ⟨old, inside, ⟨target, same, -⟩ | ⟨-, order, rfl⟩⟩ := mem_zip_renewFields member
  · exact absurd same (plain target)
  · obtain ⟨original, holds, latest⟩ := holds_renew order _ old holds
    rw [whole]
    exact ⟨original, .property inside plain holds, latest⟩

end EntityGen.Reading
