import EntityGen.Proofs.Entity.Sound
import EntityGen.Proofs.Iteration

/-! Rebuilding values in containers. The report of a change is set against the plain rebuilding of
a value, which does not look for changes: nothing is reported if and only if all entities in the
value are as they are stored, and all entities in a rebuilt value are. -/
namespace EntityGen

section Indexed

variable {α β γ : Type} {list : List α} {f : Nat → α → β}

theorem map_mapIdx (g : β → γ) : (list.mapIdx f).map g = list.mapIdx fun i a => g (f i a) :=
  List.ext_getElem (by simp) (by simp)

theorem mapIdx_eq_self {f : Nat → α → α} (same : ∀ i a, a ∈ list → f i a = a) :
    list.mapIdx f = list :=
  List.ext_getElem (by simp) (by simp [same])

theorem any_mapIdx_eq_false {p : β → Bool} :
    (list.mapIdx f).any p = false ↔ ∀ i (bound : i < list.length), p (f i list[i]) = false := by
  rw [List.any_eq_false]
  constructor
  · intro none i bound
    simpa using none _ (List.mem_mapIdx.mpr ⟨i, bound, rfl⟩)
  · intro none result member
    obtain ⟨i, bound, rfl⟩ := List.mem_mapIdx.mp member
    simp [none i bound]

end Indexed

theorem reconcile_fst (cached : Value) (latest : Option Value) :
    (reconcile cached latest).1 = latest.getD cached := by
  cases latest with
  | none => rfl
  | some latest => by_cases same : latest = cached <;> simp [reconcile, same]

theorem reconcile_clean_iff (cached : Value) (latest : Option Value) :
    (reconcile cached latest).2 = false ↔ ∀ value, latest = some value → value = cached := by
  cases latest with
  | none => simp [reconcile]
  | some latest => by_cases same : latest = cached <;> simp [reconcile, same]

namespace Reading

/-- An entity as it is stored, or as it is if nothing is stored for it. -/
def latest (reading : Reading) (entity : EntityValue) : EntityValue :=
  ⟨entity.type, ((reading.stored (reading.schema.slot entity)).map Cell.value).getD entity.value⟩

def renewEntry (renewKey renewValue : Value → Value) : Value → Value
  | .pair key value => .pair (renewKey key) (renewValue value)
  | entry => entry

/-- The value with the latest version of each entity in it. -/
def renew (reading : Reading) (iteration : Iteration) : ResolvedType → Value → Value
  | .entity type, value => (reading.latest ⟨type, value⟩).value
  | .list _ elem, .seq items =>
    if elem.holdsEntities then
      .seq (items.mapIdx fun i item => renew reading (iteration.within i) elem item)
    else .seq items
  | .map kind keyType valueType, .seq entries =>
    if keyType.holdsEntities || valueType.holdsEntities then
      .seq (grow (iteration.arrange kind entries (entries.mapIdx fun i entry => renewEntry
        (fun key => renew reading (iteration.within (2 * i)) keyType key)
        (fun value => renew reading (iteration.within (2 * i + 1)) valueType value) entry)))
    else .seq entries
  | _, value => value

/-- What is stored for an entity is its value, if anything is. -/
def Settled (reading : Reading) (entity : EntityValue) : Prop :=
  ∀ cell, reading.stored (reading.schema.slot entity) = some cell → cell.value = entity.value

def Stores (reading : Reading) (entity : EntityValue) : Prop :=
  ∃ cell, reading.stored (reading.schema.slot entity) = some cell ∧ cell.value = entity.value

def Keyed (reading : Reading) : Prop := ∀ slot cell, reading.stored slot = some cell →
  reading.schema.slot ⟨slot.type, cell.value⟩ = slot

variable {reading : Reading}

theorem rebuildEntry_fst (rebuildKey rebuildValue : Value → Value × Bool) (entry : Value) :
    (rebuildEntry rebuildKey rebuildValue entry).1 =
      renewEntry (fun key => (rebuildKey key).1) (fun value => (rebuildValue value).1) entry := by
  cases entry <;> rfl

theorem rebuildEntry_clean_iff (rebuildKey rebuildValue : Value → Value × Bool) (entry : Value) :
    (rebuildEntry rebuildKey rebuildValue entry).2 = false ↔ ∀ key value,
      entry = .pair key value → (rebuildKey key).2 = false ∧ (rebuildValue value).2 = false := by
  cases entry with
  | pair key value => simp [rebuildEntry]
  | _ => simp [rebuildEntry]

/-- The rebuilt value does not depend on the reports of changes. -/
theorem rebuild_fst (reading : Reading) (iteration : Iteration) (type : ResolvedType)
    (value : Value) :
    (reading.rebuild iteration type value).1 = reading.renew iteration type value := by
  fun_induction rebuild reading iteration type value with
  | case1 => exact reconcile_fst ..
  | case2 iteration kind elem items nested rebuilt ih =>
    rw [renew, if_pos nested]
    simp only [rebuilt, map_mapIdx, ih]
  | case3 iteration kind elem items plain => rw [renew, if_neg plain]
  | case4 iteration kind keyType valueType entries nested rebuilt met keys values =>
    rw [renew, if_pos nested]
    simp only [met, rebuilt, ← Iteration.arrange_map, map_mapIdx, rebuildEntry_fst, keys, values]
  | case5 iteration kind keyType valueType entries plain => rw [renew, if_neg plain]
  | case6 type iteration value notEntity notList notMap =>
    rw [renew]
    · exact notEntity
    · exact notList
    · exact notMap

/-- No change is reported if and only if each entity in the value is as it is stored. -/
theorem rebuild_clean_iff (reading : Reading) (iteration : Iteration) (type : ResolvedType)
    (value : Value) : (reading.rebuild iteration type value).2 = false ↔
      ∀ held, Holds type value held → reading.Settled held := by
  fun_induction rebuild reading iteration type value with
  | case1 iteration type value slot => simp [reconcile_clean_iff, Settled, slot]
  | case2 iteration kind elem items nested rebuilt ih =>
    simp only [rebuilt, any_mapIdx_eq_false, ih, Holds.list_iff]
    constructor
    · rintro clean held ⟨item, member, holds⟩
      obtain ⟨i, bound, rfl⟩ := List.getElem_of_mem member
      exact clean i bound held holds
    · intro clean i bound held holds
      exact clean held ⟨_, List.getElem_mem bound, holds⟩
  | case3 iteration kind elem items plain =>
    exact iff_of_true rfl fun held holds => absurd holds.holdsEntities plain
  | case4 iteration kind keyType valueType entries nested rebuilt met keys values =>
    have perm : met.Perm rebuilt := Iteration.arrange_perm iteration kind entries _ (by simp [rebuilt])
    rw [perm.any_eq]
    simp only [rebuilt, any_mapIdx_eq_false, rebuildEntry_clean_iff, keys, values, Holds.map_iff]
    constructor
    · rintro clean held ⟨key, value, member, holds⟩
      obtain ⟨i, bound, same⟩ := List.getElem_of_mem member
      have sides := clean i bound key value same
      exact holds.elim (sides.1 held) (sides.2 held)
    · intro clean i bound key value same
      have member : .pair key value ∈ entries := same ▸ List.getElem_mem bound
      exact ⟨fun held holds => clean held ⟨key, value, member, .inl holds⟩,
        fun held holds => clean held ⟨key, value, member, .inr holds⟩⟩
  | case5 iteration kind keyType valueType entries plain =>
    exact iff_of_true rfl fun held holds => absurd holds.holdsEntities plain
  | case6 type iteration value notEntity notList notMap =>
    exact iff_of_true rfl fun held holds => (Holds.false_of_rest notEntity notList notMap holds).elim

theorem renew_of_plain (plain : type.holdsEntities = false) (iteration : Iteration)
    (value : Value) : reading.renew iteration type value = value := by
  unfold renew
  split
  next => cases plain
  next elem _ =>
    have plain : elem.holdsEntities = false := plain
    simp [plain]
  next keyType valueType _ =>
    have plain : (keyType.holdsEntities || valueType.holdsEntities) = false := plain
    simp [plain]
  next => rfl

/-- An entity in a renewed value is the latest version of one in the value itself. -/
theorem holds_renew (iteration : Iteration) (type : ResolvedType) (value : Value)
    (holds : Holds type (reading.renew iteration type value) held) :
    ∃ original, Holds type value original ∧ held = reading.latest original := by
  fun_induction renew reading iteration type value with
  | case1 => exact ⟨_, .self, Holds.entity_iff.mp holds⟩
  | case2 iteration kind elem items nested ih =>
    obtain ⟨item, member, holds⟩ := Holds.list_iff.mp holds
    obtain ⟨i, bound, rfl⟩ := List.mem_mapIdx.mp member
    obtain ⟨original, inside, same⟩ := ih i _ holds
    exact ⟨original, .inItem (List.getElem_mem bound) inside, same⟩
  | case3 iteration kind elem items plain => exact absurd holds.holdsEntities plain
  | case4 iteration kind keyType valueType entries nested keys values =>
    obtain ⟨newKey, newValue, member, holds⟩ := Holds.map_iff.mp holds
    have member := Iteration.mem_of_mem_arrange _ _ _ _ (mem_grow member)
    obtain ⟨i, bound, same⟩ := List.mem_mapIdx.mp member
    have place := List.getElem_mem bound
    cases entry : entries[i] with
    | pair key value =>
      rw [entry] at same place
      obtain ⟨rfl, rfl⟩ := Value.pair.inj same
      rcases holds with holds | holds
      · obtain ⟨original, inside, same⟩ := keys i _ holds
        exact ⟨original, .inKey place inside, same⟩
      · obtain ⟨original, inside, same⟩ := values i _ holds
        exact ⟨original, .inValue place inside, same⟩
    | _ => rw [entry] at same; cases same
  | case5 iteration kind keyType valueType entries plain =>
    exact absurd holds.holdsEntities plain
  | case6 type iteration value notEntity notList notMap =>
    exact (Holds.false_of_rest notEntity notList notMap holds).elim

theorem slot_latest (keyed : reading.Keyed) (entity : EntityValue) :
    reading.schema.slot (reading.latest entity) = reading.schema.slot entity := by
  unfold latest
  cases stored : reading.stored (reading.schema.slot entity) with
  | none => rfl
  | some cell => exact keyed _ cell stored

theorem settled_latest (keyed : reading.Keyed) (entity : EntityValue) :
    reading.Settled (reading.latest entity) := by
  intro cell stored
  rw [slot_latest keyed] at stored
  simp [latest, stored]

theorem Stores.settled {entity : EntityValue} (stores : reading.Stores entity) :
    reading.Settled entity := by
  obtain ⟨cell, stored, same⟩ := stores
  intro found here
  rw [Option.some.inj (here.symm.trans stored), same]

theorem latest_of_settled {entity : EntityValue} (settled : reading.Settled entity) :
    reading.latest entity = entity := by
  unfold latest
  cases stored : reading.stored (reading.schema.slot entity) with
  | none => rfl
  | some cell => simp [settled cell stored]

/-- A value in which each entity is as it is stored is not changed when it is renewed. That a map
is grown again in the order of iteration makes no difference, since it has each key once. -/
theorem renew_eq_self (typed : Typed reading.schema type value) (iteration : Iteration)
    (settled : ∀ held, Holds type value held → reading.Settled held) :
    reading.renew iteration type value = value := by
  induction typed generalizing iteration with
  | leaf | other => simp [renew]
  | entity => rw [renew, latest_of_settled (settled _ .self)]
  | list _ ih =>
    rw [renew]
    split
    · rw [mapIdx_eq_self fun i item member =>
        ih item member _ fun held holds => settled held (.inItem member holds)]
    · rfl
  | @map pairs keyType valueType kind ascending _ _ keys values =>
    rw [renew]
    split
    · have same : ∀ i entry, entry ∈ pairs.map Value.entry → renewEntry
          (reading.renew (iteration.within (2 * i)) keyType)
          (reading.renew (iteration.within (2 * i + 1)) valueType) entry = entry := by
        intro i entry member
        obtain ⟨pair, inside, rfl⟩ := List.mem_map.mp member
        have key := keys pair inside (iteration.within (2 * i))
          fun held holds => settled held (.inKey member holds)
        have value := values pair inside (iteration.within (2 * i + 1))
          fun held holds => settled held (.inValue member holds)
        simp only [Value.entry, renewEntry, key, value]
      rw [mapIdx_eq_self same, Iteration.arrange_map, grow_map_entry,
        growPairs_eq (Iteration.arrange_perm _ _ _ _ (by simp)) ascending]
    · rfl

end Reading
end EntityGen
