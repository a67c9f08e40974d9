import EntityGen.Proofs.Reading.Frame

/-! What a read depends on. Besides what is cached these are the reads of the entities that it holds
directly, and what is stored for those in its containers. Of the latter only those count that the
answer shows: an entry of a map that another one of the same key hides makes no difference. -/
namespace EntityGen.Reading

open Value

variable {reading other : Reading} {schema : Schema} {iteration : Iteration}

/-- A map is renewed by growing it from the images of its entries in the order of iteration, which
does not depend on what these are. -/
theorem renew_map_arranged (nested : (keyType.holdsEntities || valueType.holdsEntities) = true)
    (iteration : Iteration) (kind : MapKind) (pairs : List (Value × Value)) :
    reading.renew iteration (.map kind keyType valueType) (.seq (pairs.map entry)) =
      .seq ((growPairs ((iteration.arrange kind (pairs.map entry) (pairs.mapIdx Prod.mk)).map
        fun place => reading.renewPair iteration keyType valueType place.1 place.2)).map entry) := by
  have images : reading.renewPairs iteration keyType valueType pairs =
      (pairs.mapIdx Prod.mk).map fun place =>
        reading.renewPair iteration keyType valueType place.1 place.2 := by
    rw [map_mapIdx]
    rfl
  rw [renew_map nested, images, Iteration.arrange_map]

/-- A value is renewed to the same value if the entities in it are, but for those that the renewed
value does not show. -/
theorem renew_congr (typed : Typed schema type value) (iteration : Iteration)
    (same : ∀ held, Holds type value held →
      Holds type (reading.renew iteration type value) (reading.latest held) →
      other.latest held = reading.latest held) :
    other.renew iteration type value = reading.renew iteration type value := by
  induction typed generalizing iteration with
  | leaf | other => simp [renew]
  | entity =>
    simp only [renew] at same ⊢
    rw [same _ .self .self]
  | @list items elem kind _ ih =>
    cases nested : elem.holdsEntities with
    | false =>
      have plain : (ResolvedType.list kind elem).holdsEntities = false := nested
      rw [renew_of_plain plain, renew_of_plain plain]
    | true =>
      simp only [renew, nested, if_true] at same ⊢
      refine congrArg Value.seq (List.ext_getElem (by simp) fun i bound _ => ?_)
      have place : i < items.length := by simpa using bound
      have inside : items[i] ∈ items := List.getElem_mem place
      simp only [List.getElem_mapIdx]
      refine ih _ inside (iteration.within i) fun held holds shown => ?_
      exact same held (.inItem inside holds) (.inItem (List.mem_mapIdx.mpr ⟨i, place, rfl⟩) shown)
  | @map pairs keyType valueType kind _ _ _ keys values =>
    cases nested : keyType.holdsEntities || valueType.holdsEntities with
    | false =>
      have plain : (ResolvedType.map kind keyType valueType).holdsEntities = false := nested
      rw [renew_of_plain plain, renew_of_plain plain]
    | true =>
      rw [renew_map_arranged nested] at same ⊢
      rw [renew_map_arranged nested]
      generalize met : iteration.arrange kind (pairs.map entry) (pairs.mapIdx Prod.mk) = places
        at same ⊢
      have inside : ∀ place ∈ places, place.2 ∈ pairs := by
        intro place member
        obtain ⟨i, bound, rfl⟩ :=
          List.mem_mapIdx.mp (Iteration.mem_of_mem_arrange iteration kind _ _ (met ▸ member))
        exact List.getElem_mem bound
      -- All keys are shown, so they have the same images; of the values only those that are shown.
      have sameKeys : ∀ place ∈ places,
          (other.renewPair iteration keyType valueType place.1 place.2).1 =
            (reading.renewPair iteration keyType valueType place.1 place.2).1 := by
        intro place member
        refine keys _ (inside place member) _ fun held holds shown => ?_
        obtain ⟨image, grown, key⟩ := List.mem_map.mp (mem_keys_growPairs.mpr
          (List.mem_map_of_mem (List.mem_map_of_mem member)))
        refine same held (.inKey (List.mem_map_of_mem (inside place member)) holds) ?_
        exact .inKey (List.mem_map_of_mem grown) (key ▸ shown)
      refine congrArg (fun map => Value.seq (map.map entry)) (growPairs_congr
        (fun place member => (sameKeys place member).symm) fun place member grown => ?_).symm
      refine Prod.ext (sameKeys place member).symm (Eq.symm ?_)
      refine values _ (inside place member) _ fun held holds shown => ?_
      exact same held (.inValue (List.mem_map_of_mem (inside place member)) holds)
        (.inValue (List.mem_map_of_mem grown) shown)

/-- Rebuilt properties are the same if reads find the same for the entities among them, and the same
is stored for the entities in containers that the rebuilt ones show. -/
theorem renewFields_congr (slots : other.schema = reading.schema)
    (typed : ∀ type value, (type, value) ∈ types.zip values → Typed schema type value)
    (direct : ∀ target value, (.entity target, value) ∈ types.zip values →
      other.valueOf (reading.schema.slot ⟨target, value⟩) =
        reading.valueOf (reading.schema.slot ⟨target, value⟩))
    (contained : ∀ type value image held, (∀ target, type ≠ .entity target) →
      (type, value) ∈ types.zip values → Holds type value held →
      (type, image) ∈ types.zip (reading.renewFields iteration types values) →
      Holds type image (reading.latest held) → other.latest held = reading.latest held) :
    other.renewFields iteration types values = reading.renewFields iteration types values := by
  fun_induction renewFields reading iteration types values with
  | case1 iteration target types value values ih =>
    have rest := ih (fun type value member => typed type value (.tail _ member))
      (fun target value member => direct target value (.tail _ member))
      fun type value image held plain member holds shown =>
        contained type value image held plain (.tail _ member) holds (.tail _ shown)
    rw [renewFields, slots, direct target value (.head _), rest]
  | case2 iteration type types value values plain ih =>
    have rest := ih (fun type value member => typed type value (.tail _ member))
      (fun target value member => direct target value (.tail _ member))
      fun type value image held plain member holds shown =>
        contained type value image held plain (.tail _ member) holds (.tail _ shown)
    have first : other.renew (iteration.within 0) type value =
        reading.renew (iteration.within 0) type value :=
      renew_congr (typed _ _ (.head _)) _ fun held holds shown =>
        contained _ _ _ held plain (.head _) holds (.head _) shown
    rw [renewFields, first, rest]
    exact plain
  | case3 types iteration values noEntity noOther =>
    rw [renewFields]
    · exact noEntity
    · exact noOther

/-- An entity is rebuilt to the same value by two readings if both find the same for the entities
that it holds directly, and for those in containers that the rebuilt entity shows. -/
theorem renewed_congr {stored : Slot → Option Cell}
    (typed : Typed reading.schema (.entity type) cached.value)
    (direct : ∀ held, reading.schema.HoldsDirectly ⟨type, cached.value⟩ held →
      { reading with stored }.valueOf (reading.schema.slot held) =
        reading.valueOf (reading.schema.slot held))
    (contained : ∀ held, reading.schema.HoldsInContainer ⟨type, cached.value⟩ held →
      reading.schema.HoldsInContainer ⟨type, reading.renewed type cached⟩ (reading.latest held) →
      { reading with stored }.latest held = reading.latest held) :
    { reading with stored }.renewed type cached = reading.renewed type cached := by
  obtain ⟨fields, whole⟩ : ∃ fields, cached.value = .seq fields := by
    generalize cached.value = value at typed
    cases typed with | entity => exact ⟨_, rfl⟩
  rw [renewed_of_seq whole] at contained ⊢
  rw [renewed_of_seq whole]
  rw [whole] at typed direct contained
  cases typed with
  | entity _ _ fieldsTyped =>
    refine congrArg Value.seq (renewFields_congr rfl fieldsTyped ?_ ?_)
    · exact fun target value member => direct _ (.property member)
    · exact fun property value image held plain member holds shown shownHolds =>
        contained held (.property member plain holds) (.property shown plain shownHolds)

/-- What a read finds for what is stored is the rebuilt entity. -/
theorem valueOf_of_stored (sound : reading.schema.Sound) (keyed : reading.Keyed)
    (typed : Typed reading.schema (.entity slot.type) cached.value)
    (stored : reading.stored slot = some cached) :
    reading.valueOf slot = some (reading.renewed slot.type cached) := by
  obtain ⟨dirty, answer, -⟩ := get_of_stored sound typed.known stored
  rw [valueOf, answer, Option.join_some, Option.map_some,
    value_of_get sound keyed typed stored answer]

end EntityGen.Reading
