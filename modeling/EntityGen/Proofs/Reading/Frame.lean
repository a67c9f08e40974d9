import EntityGen.Proofs.Reading.Staleness

/-! What a rebuild leaves as it is. Only the entities in a value are replaced, each by one of its
own type and id; lists keep their elements in order, and a map consists of the images of its
entries. Two entries become one only if their keys do, and for this two entities of one type and id
must differ. -/
namespace EntityGen

theorem mem_zip_mapIdx {list : List α} {f : Nat → α → β} (member : (a, b) ∈ list.zip (list.mapIdx f)) :
    a ∈ list ∧ ∃ i, b = f i a := by
  obtain ⟨i, bound, same⟩ := List.getElem_of_mem member
  rw [List.getElem_zip, List.getElem_mapIdx] at same
  obtain ⟨rfl, rfl⟩ := Prod.mk.inj same
  exact ⟨List.getElem_mem _, i, rfl⟩

namespace Reading

open Value

variable {reading : Reading} {schema : Schema} {iteration : Iteration}

/-- An entity is replaced by the one that is looked up for it, if there is one. Its slot is kept. -/
def LookedUp (reading : Reading) (lookup : Slot → Option Value) (old : EntityValue) (new : Value) :
    Prop :=
  new = (lookup (reading.schema.slot old)).getD old.value ∧
    reading.schema.slot ⟨old.type, new⟩ = reading.schema.slot old

/-- A map that is grown from the images of entries: each key is there, with the value of one of the
images that have it. Given `apart`, there is one entry for each image. -/
structure Regrown (apart : Prop) (images map : List (Value × Value)) : Prop where
  ascending : Ascending map
  present : ∀ image ∈ images, image.1 ∈ map.map Prod.fst
  origin : ∀ pair ∈ map, pair ∈ images
  whole : apart → map.Perm images

/-- The second value is what the first is rebuilt to, part by part: what holds no entities is the
same, lists have an image for each element, and maps for both sides of each entry. -/
inductive Renewal (reading : Reading) (apart : Prop) : ResolvedType → Value → Value → Prop where
  | plain : type.holdsEntities = false → Renewal reading apart type value value
  | entity : reading.LookedUp (fun slot => (reading.stored slot).map Cell.value) ⟨type, old⟩ new →
      Renewal reading apart (.entity type) old new
  | list : elem.holdsEntities = true → images.length = items.length →
      (∀ item image, (item, image) ∈ items.zip images → Renewal reading apart elem item image) →
      Renewal reading apart (.list kind elem) (.seq items) (.seq images)
  | map {pairs images map : List (Value × Value)} :
      (keyType.holdsEntities || valueType.holdsEntities) = true → images.length = pairs.length →
      (∀ pair image, (pair, image) ∈ pairs.zip images →
        Renewal reading apart keyType pair.1 image.1) →
      (∀ pair image, (pair, image) ∈ pairs.zip images →
        Renewal reading apart valueType pair.2 image.2) →
      Regrown apart images map →
      Renewal reading apart (.map kind keyType valueType) (.seq (pairs.map entry))
        (.seq (map.map entry))

def renewPair (reading : Reading) (iteration : Iteration) (keyType valueType : ResolvedType)
    (i : Nat) (pair : Value × Value) : Value × Value :=
  (reading.renew (iteration.within (2 * i)) keyType pair.1,
    reading.renew (iteration.within (2 * i + 1)) valueType pair.2)

def renewPairs (reading : Reading) (iteration : Iteration) (keyType valueType : ResolvedType)
    (pairs : List (Value × Value)) : List (Value × Value) :=
  pairs.mapIdx (reading.renewPair iteration keyType valueType)

theorem mem_zip_renewPairs {pairs : List (Value × Value)} {pair image : Value × Value}
    (member : (pair, image) ∈ pairs.zip (reading.renewPairs iteration keyType valueType pairs)) :
    pair ∈ pairs ∧ ∃ i j, image = (reading.renew i keyType pair.1, reading.renew j valueType pair.2) := by
  obtain ⟨inside, i, same⟩ := mem_zip_mapIdx member
  exact ⟨inside, _, _, same⟩

theorem renew_map (nested : (keyType.holdsEntities || valueType.holdsEntities) = true)
    (iteration : Iteration) (kind : MapKind) (pairs : List (Value × Value)) :
    reading.renew iteration (.map kind keyType valueType) (.seq (pairs.map entry)) =
      .seq ((growPairs (iteration.arrange kind (pairs.map entry)
        (reading.renewPairs iteration keyType valueType pairs))).map entry) := by
  rw [renew, if_pos nested, ← grow_map_entry, ← Iteration.arrange_map]
  refine congrArg (fun images => Value.seq (grow (iteration.arrange kind _ images))) ?_
  exact List.ext_getElem (by simp [renewPairs])
    (by simp [renewPairs, renewPair, entry, renewEntry])

theorem arrange_renewPairs_perm (reading : Reading) (iteration : Iteration) (kind : MapKind)
    (keyType valueType : ResolvedType) (pairs : List (Value × Value)) :
    (iteration.arrange kind (pairs.map entry)
      (reading.renewPairs iteration keyType valueType pairs)).Perm
        (reading.renewPairs iteration keyType valueType pairs) :=
  Iteration.arrange_perm _ _ _ _ (by simp [renewPairs])

/-- The map has one entry for each image, if these have different keys. -/
theorem growPairs_perm_of_arranged (iteration : Iteration) (kind : MapKind)
    (distinct : ((reading.renewPairs iteration keyType valueType pairs).map Prod.fst).Nodup) :
    (growPairs (iteration.arrange kind (pairs.map entry)
      (reading.renewPairs iteration keyType valueType pairs))).Perm
        (reading.renewPairs iteration keyType valueType pairs) := by
  have arranged := arrange_renewPairs_perm reading iteration kind keyType valueType pairs
  exact (growPairs_perm _ ((arranged.map Prod.fst).nodup_iff.mpr distinct)).trans arranged

/-- If different keys have different images, so have the entries of a map in order. -/
theorem nodup_keys_renewPairs (ascending : Ascending pairs) (iteration : Iteration)
    (keyType valueType : ResolvedType)
    (injective : ∀ a ∈ pairs, ∀ b ∈ pairs, ∀ i j,
      reading.renew i keyType a.1 = reading.renew j keyType b.1 → a.1 = b.1) :
    ((reading.renewPairs iteration keyType valueType pairs).map Prod.fst).Nodup := by
  have distinct := Ascending.nodup_keys ascending
  rw [List.nodup_iff_pairwise_ne, List.pairwise_iff_getElem] at distinct ⊢
  intro i j first second before same
  simp only [renewPairs, renewPair, List.length_map, List.length_mapIdx, List.getElem_map,
    List.getElem_mapIdx] at first second same
  refine distinct i j (by simpa) (by simpa) before ?_
  rw [List.getElem_map, List.getElem_map]
  exact injective _ (List.getElem_mem _) _ (List.getElem_mem _) _ _ same

/-- A map all of whose images are among those of another one is part of this one. -/
theorem subset_of_renewPairs {pairs others : List (Value × Value)}
    (inside : reading.renewPairs i keyType valueType pairs ⊆
      reading.renewPairs j keyType valueType others)
    (keys : ∀ a ∈ pairs, ∀ b ∈ others, ∀ i j,
      reading.renew i keyType a.1 = reading.renew j keyType b.1 → a.1 = b.1)
    (values : ∀ a ∈ pairs, ∀ b ∈ others, ∀ i j,
      reading.renew i valueType a.2 = reading.renew j valueType b.2 → a.2 = b.2) :
    pairs ⊆ others := by
  intro pair member
  obtain ⟨n, bound, rfl⟩ := List.getElem_of_mem member
  have image : _ ∈ reading.renewPairs i keyType valueType pairs :=
    List.mem_mapIdx.mpr ⟨n, bound, rfl⟩
  obtain ⟨m, other, same⟩ := List.mem_mapIdx.mp (inside image)
  obtain ⟨key, value⟩ := Prod.mk.inj same
  have equal : pairs[n] = others[m] := Prod.ext
    (keys _ member _ (List.getElem_mem other) _ _ key.symm)
    (values _ member _ (List.getElem_mem other) _ _ value.symm)
  exact equal ▸ List.getElem_mem other

/-- A value of a type, of which all entities are in a group. -/
structure Grouped (schema : Schema) (group : EntityValue → Prop) (type : ResolvedType)
    (value : Value) : Prop where
  typed : Typed schema type value
  inside : ∀ held, Holds type value held → group held

namespace Grouped

variable {group : EntityValue → Prop}

theorem of_list (grouped : Grouped schema group (.list kind elem) value) :
    ∃ items, value = .seq items ∧ ∀ item ∈ items, Grouped schema group elem item := by
  obtain ⟨typed, inside⟩ := grouped
  cases typed with
  | list items =>
    exact ⟨_, rfl, fun item member =>
      ⟨items item member, fun held holds => inside held (.inItem member holds)⟩⟩

theorem of_map (grouped : Grouped schema group (.map kind keyType valueType) value) :
    ∃ pairs, value = .seq (pairs.map entry) ∧ Ascending pairs ∧
      (∀ pair ∈ pairs, Grouped schema group keyType pair.1) ∧
      ∀ pair ∈ pairs, Grouped schema group valueType pair.2 := by
  obtain ⟨typed, inside⟩ := grouped
  cases typed with
  | map ascending keys values =>
    refine ⟨_, rfl, ascending, fun pair member => ⟨keys pair member, fun held holds => ?_⟩,
      fun pair member => ⟨values pair member, fun held holds => ?_⟩⟩
    · exact inside held (.inKey (List.mem_map_of_mem member) holds)
    · exact inside held (.inValue (List.mem_map_of_mem member) holds)

end Grouped

/-- Different values are not rebuilt to the same one if the entities in both are of one group, in
which no two entities have one type and id. By recursion on the type. -/
theorem eq_of_renew_eq (keyed : reading.Keyed) {group : EntityValue → Prop}
    (apart : ∀ x y, group x → group y → reading.schema.slot x = reading.schema.slot y → x = y) :
    (type : ResolvedType) → {a b : Value} → (i j : Iteration) →
    Grouped reading.schema group type a → Grouped reading.schema group type b →
    reading.renew i type a = reading.renew j type b → a = b
  | .leaf _, _, _, _, _, _, _, same => by simpa [renew] using same
  | .other _ _, _, _, _, _, _, _, same => by simpa [renew] using same
  | .entity type, a, b, i, j, first, second, same => by
    have latest : reading.latest ⟨type, a⟩ = reading.latest ⟨type, b⟩ := by
      simp only [renew] at same
      exact congrArg (EntityValue.mk type) same
    have slots : reading.schema.slot ⟨type, a⟩ = reading.schema.slot ⟨type, b⟩ := by
      rw [← slot_latest keyed, latest, slot_latest keyed]
    have equal := apart _ _ (first.inside _ .self) (second.inside _ .self) slots
    exact congrArg EntityValue.value equal
  | .list kind elem, _, _, i, j, first, second, same => by
    obtain ⟨items, rfl, grouped⟩ := first.of_list
    obtain ⟨others, rfl, otherGrouped⟩ := second.of_list
    simp only [renew] at same
    split at same
    · have same := Value.seq.inj same
      have lengths : items.length = others.length := by simpa using congrArg List.length same
      refine congrArg Value.seq (List.ext_getElem lengths fun n bound otherBound => ?_)
      have image := List.getElem_of_eq same (by simpa using bound)
      simp only [List.getElem_mapIdx] at image
      exact eq_of_renew_eq keyed apart elem _ _ (grouped _ (List.getElem_mem bound))
        (otherGrouped _ (List.getElem_mem otherBound)) image
    · exact same
  | .map kind keyType valueType, _, _, i, j, first, second, same => by
    obtain ⟨pairs, rfl, ascending, keys, values⟩ := first.of_map
    obtain ⟨others, rfl, otherAscending, otherKeys, otherValues⟩ := second.of_map
    by_cases nested : (keyType.holdsEntities || valueType.holdsEntities) = true
    · rw [renew_map nested, renew_map nested] at same
      have grown := List.map_injective_iff.mpr entry_injective (Value.seq.inj same)
      have distinct := nodup_keys_renewPairs ascending i keyType valueType
        fun a inA b inB i j => eq_of_renew_eq keyed apart keyType i j (keys a inA) (keys b inB)
      have otherDistinct := nodup_keys_renewPairs otherAscending j keyType valueType
        fun a inA b inB i j =>
          eq_of_renew_eq keyed apart keyType i j (otherKeys a inA) (otherKeys b inB)
      -- Both maps have all images as entries, so they have the same images, and the same entries.
      have images : (reading.renewPairs i keyType valueType pairs).Perm
          (reading.renewPairs j keyType valueType others) := by
        have entries := growPairs_perm_of_arranged i kind distinct
        have otherEntries := growPairs_perm_of_arranged j kind otherDistinct
        exact entries.symm.trans (grown ▸ otherEntries)
      have subset : pairs ⊆ others := subset_of_renewPairs images.subset
        (fun a inA b inB i j => eq_of_renew_eq keyed apart keyType i j (keys a inA) (otherKeys b inB))
        fun a inA b inB i j =>
          eq_of_renew_eq keyed apart valueType i j (values a inA) (otherValues b inB)
      have otherSubset : others ⊆ pairs := subset_of_renewPairs images.symm.subset
        (fun a inA b inB i j => eq_of_renew_eq keyed apart keyType i j (otherKeys a inA) (keys b inB))
        fun a inA b inB i j =>
          eq_of_renew_eq keyed apart valueType i j (otherValues a inA) (values b inB)
      rw [Ascending.eq_of_subset ascending otherAscending subset otherSubset]
    · have plain : (ResolvedType.map kind keyType valueType).holdsEntities = false :=
        Bool.eq_false_iff.mpr nested
      rwa [renew_of_plain plain, renew_of_plain plain] at same

/-- A value is rebuilt part by part; where no two entities in it have one type and id, no entries of
a map become one. -/
theorem renewal_renew (keyed : reading.Keyed) {apart : Prop} (typed : Typed reading.schema type value)
    (iteration : Iteration) (separate : apart → ∀ x y, Holds type value x → Holds type value y →
      reading.schema.slot x = reading.schema.slot y → x = y) :
    Renewal reading apart type value (reading.renew iteration type value) := by
  induction typed generalizing iteration with
  | leaf | other => simpa [renew] using Renewal.plain rfl
  | entity => exact .entity ⟨rfl, slot_latest keyed _⟩
  | @list items elem kind typed ih =>
    cases nested : elem.holdsEntities with
    | false =>
      have plain : (ResolvedType.list kind elem).holdsEntities = false := nested
      exact (renew_of_plain plain iteration _).symm ▸ .plain plain
    | true =>
      simp only [renew, nested, if_true]
      refine .list nested List.length_mapIdx fun item image member => ?_
      obtain ⟨inside, i, rfl⟩ := mem_zip_mapIdx member
      exact ih item inside _ fun all x y holdsX holdsY =>
        separate all x y (.inItem inside holdsX) (.inItem inside holdsY)
  | @map pairs keyType valueType kind ascending typedKeys typedValues keys values =>
    cases nested : keyType.holdsEntities || valueType.holdsEntities with
    | false =>
      have plain : (ResolvedType.map kind keyType valueType).holdsEntities = false := nested
      exact (renew_of_plain plain iteration _).symm ▸ .plain plain
    | true =>
      have lengths : (reading.renewPairs iteration keyType valueType pairs).length = pairs.length :=
        List.length_mapIdx
      have arranged := arrange_renewPairs_perm reading iteration kind keyType valueType pairs
      rw [renew_map nested]
      refine .map nested lengths ?_ ?_ ⟨growPairs_ascending _, ?_, ?_, ?_⟩
      · intro pair image member
        obtain ⟨inside, i, j, rfl⟩ := mem_zip_renewPairs member
        have place : entry pair ∈ pairs.map entry := List.mem_map_of_mem inside
        exact keys pair inside i fun all x y holdsX holdsY =>
          separate all x y (.inKey place holdsX) (.inKey place holdsY)
      · intro pair image member
        obtain ⟨inside, i, j, rfl⟩ := mem_zip_renewPairs member
        have place : entry pair ∈ pairs.map entry := List.mem_map_of_mem inside
        exact values pair inside j fun all x y holdsX holdsY =>
          separate all x y (.inValue place holdsX) (.inValue place holdsY)
      · intro image member
        exact mem_keys_growPairs.mpr (List.mem_map_of_mem (arranged.symm.subset member))
      · exact fun pair member => arranged.subset (mem_growPairs member)
      · intro all
        have grouped : ∀ pair ∈ pairs, Grouped reading.schema
            (Holds (.map kind keyType valueType) (.seq (pairs.map entry))) keyType pair.1 :=
          fun pair inside =>
            ⟨typedKeys pair inside, fun held holds => .inKey (List.mem_map_of_mem inside) holds⟩
        refine growPairs_perm_of_arranged iteration kind (nodup_keys_renewPairs ascending iteration
          keyType valueType fun a inA b inB i j => ?_)
        exact eq_of_renew_eq keyed (separate all) keyType i j (grouped a inA) (grouped b inB)

/-- The entity that is found for a property is the one that is read, and the entities in a container
are the ones that are stored. -/
def PropertyRenewal (reading : Reading) (apart : Prop) : ResolvedType → Value → Value → Prop
  | .entity type, old, new => reading.LookedUp reading.valueOf ⟨type, old⟩ new
  | type, old, new => Renewal reading apart type old new

/-- What is found for an entity differs from what is cached in the entities that it holds, and in
nothing else. -/
structure Frame (reading : Reading) (type : EntityType) (cached found : Value) : Prop where
  slot : reading.schema.slot ⟨type, found⟩ = reading.schema.slot ⟨type, cached⟩
  properties : ∃ olds news, cached = .seq olds ∧ found = .seq news ∧
    olds.length = (reading.schema.properties type).length ∧
    news.length = (reading.schema.properties type).length ∧
    ∀ property old new, (property, old, new) ∈ (reading.schema.properties type).zip (olds.zip news) →
      reading.PropertyRenewal
        (∀ x y, reading.schema.Refers ⟨type, cached⟩ x → reading.schema.Refers ⟨type, cached⟩ y →
          reading.schema.slot x = reading.schema.slot y → x = y)
        property old new

theorem length_renewFields (lengths : values.length = types.length) :
    (reading.renewFields iteration types values).length = types.length := by
  fun_induction renewFields reading iteration types values with
  | case1 iteration target types value values ih =>
    exact congrArg Nat.succ (ih (Nat.succ.inj lengths))
  | case2 iteration type types value values plain ih =>
    exact congrArg Nat.succ (ih (Nat.succ.inj lengths))
  | case3 types iteration values noEntity noOther =>
    rcases nil_or_nil_of_end noOther with rfl | rfl
    · rfl
    · exact lengths

/-- The value that a renewed property has in place of the cached one. -/
theorem mem_zip_zip_renewFields {types : List ResolvedType} {values : List Value}
    (member : (property, old, new) ∈ types.zip (values.zip (reading.renewFields iteration types values))) :
    (property, old) ∈ types.zip values ∧
      ((∃ target, property = .entity target ∧
        new = (reading.valueOf (reading.schema.slot ⟨target, old⟩)).getD old) ∨
      (∀ target, property ≠ .entity target) ∧ ∃ order, new = reading.renew order property old) := by
  fun_induction renewFields reading iteration types values with
  | case1 iteration target types value values ih =>
    rcases List.mem_cons.mp member with here | later
    · obtain ⟨rfl, rfl, rfl⟩ : property = .entity target ∧ old = value ∧ new = _ := by
        simpa using here
      exact ⟨List.mem_cons_self, .inl ⟨target, rfl, rfl⟩⟩
    · exact ⟨List.mem_cons_of_mem _ (ih later).1, (ih later).2⟩
  | case2 iteration type types value values plain ih =>
    rcases List.mem_cons.mp member with here | later
    · obtain ⟨rfl, rfl, rfl⟩ : property = type ∧ old = value ∧ new = _ := by simpa using here
      exact ⟨List.mem_cons_self, .inr ⟨plain, _, rfl⟩⟩
    · exact ⟨List.mem_cons_of_mem _ (ih later).1, (ih later).2⟩
  | case3 => simp at member

theorem propertyRenewal_of_plain {apart : Prop} (plain : ∀ target, type ≠ .entity target)
    (renewal : reading.Renewal apart type old new) : reading.PropertyRenewal apart type old new := by
  cases type with
  | entity target => exact absurd rfl (plain target)
  | _ => exact renewal

/-- What is read for an entity that is held directly has its slot. -/
theorem lookedUp_valueOf (sound : reading.schema.Sound) (keyed : reading.Keyed)
    (known : reading.schema.Known held.type) : reading.LookedUp reading.valueOf held
      ((reading.valueOf (reading.schema.slot held)).getD held.value) := by
  refine ⟨rfl, ?_⟩
  cases value : reading.valueOf (reading.schema.slot held) with
  | none => rfl
  | some latest =>
    obtain ⟨found, answer, rfl⟩ : ∃ found,
        reading.get (reading.schema.slot held) = some (some found) ∧ found.value = latest := by
      simpa [valueOf, Option.join_eq_some_iff] using value
    exact slot_get sound keyed known answer

/-- A rebuilt entity differs from the cached one in the entities that it holds only. -/
theorem frame_renewed (sound : reading.schema.Sound) (keyed : reading.Keyed)
    (typed : Typed reading.schema (.entity type) cached.value) :
    reading.Frame type cached.value (reading.renewed type cached) := by
  refine ⟨slot_renewed sound type cached, ?_⟩
  obtain ⟨fields, whole⟩ : ∃ fields, cached.value = .seq fields := by
    generalize cached.value = value at typed
    cases typed with | entity => exact ⟨_, rfl⟩
  rw [renewed_of_seq whole, whole]
  rw [whole] at typed
  cases typed with
  | entity known lengths fieldsTyped =>
    refine ⟨_, _, rfl, rfl, lengths, length_renewFields lengths, ?_⟩
    intro property old new member
    obtain ⟨inside, ⟨target, rfl, rfl⟩ | ⟨plain, order, rfl⟩⟩ := mem_zip_zip_renewFields member
    · exact lookedUp_valueOf sound keyed (sound.known_of_embeds (List.of_mem_zip inside).1)
    · refine propertyRenewal_of_plain plain
        (renewal_renew keyed (fieldsTyped property old inside) order fun apart x y holdsX holdsY => ?_)
      exact apart x y (Schema.refers_iff.mpr ⟨_, rfl, property, old, inside, holdsX⟩)
        (Schema.refers_iff.mpr ⟨_, rfl, property, old, inside, holdsY⟩)

theorem stored_of_get (answer : reading.get slot = some (some found)) :
    ∃ cached, reading.stored slot = some cached := by
  unfold get at answer
  cases depth : reading.schema.length with
  | zero => rw [depth, getWithin] at answer; cases answer
  | succ depth' =>
    rw [depth, getWithin] at answer
    cases stored : reading.stored slot with
    | none => rw [stored] at answer; cases answer
    | some cached => exact ⟨cached, rfl⟩

/-- Whether or not there is a new entity, the answer has the value of the rebuilt one. -/
theorem value_of_get (sound : reading.schema.Sound) (keyed : reading.Keyed)
    (typed : Typed reading.schema (.entity slot.type) cached.value)
    (stored : reading.stored slot = some cached) (answer : reading.get slot = some (some found)) :
    found.value = reading.renewed slot.type cached := by
  obtain ⟨dirty, result, clean⟩ := get_of_stored sound typed.known stored
  obtain rfl := Option.some.inj (Option.some.inj (answer.symm.trans result))
  cases dirty with
  | false => exact ((renewed_eq_iff keyed typed).mpr (clean.mp rfl)).symm
  | true => rfl

end Reading

namespace Repository

variable {schema : Schema} {world : World}

/-- What a read finds is the entity that is stored, but for the entities that this holds: it has its
id, and each property is the cached one with entities replaced by what is read or stored for them. -/
theorem frame_of_get (sound : schema.Sound) (reachable : world.Reachable schema)
    (repository : Repository) (iteration : Nat → Iteration)
    (answer : (repository.reading schema iteration world).get slot = some (some found)) :
    ∃ cached, repository.read world slot = some cached ∧
      (repository.reading schema iteration world).Frame slot.type cached.value found.value := by
  let reading := repository.reading schema iteration world
  have keyed : reading.Keyed := keyed_reading reachable iteration
  obtain ⟨cached, stored⟩ := Reading.stored_of_get answer
  obtain ⟨store, -, inStore⟩ := read_some stored
  have typed := (reachable.every store slot cached inStore).2
  refine ⟨cached, stored, ?_⟩
  rw [Reading.value_of_get sound keyed typed stored answer]
  exact Reading.frame_renewed sound keyed typed

end Repository

/-- An album is put and then a new version of one of its tags. What is read is the album with this
version in both places where the tag stands, and with an entry for each of its further tags. -/
theorem Album.frame_of_get_album :
    let repository : Repository := ⟨[0], [0]⟩
    let put (entity : EntityValue) := ((repository.storing schema Iteration.sorted).putEntity entity).run
    let cached := albumValue 1 (tagValue 7 0) [(tagValue 7 0, .int 10), (tagValue 8 1, .int 20)]
    let found := albumValue 1 (tagValue 7 5) [(tagValue 7 5, .int 10), (tagValue 8 1, .int 20)]
    let world := (put ⟨tag, tagValue 7 5⟩ (put ⟨album, cached⟩ (World.ofCount 1)).2).2
    let reading := repository.reading schema (fun _ => Iteration.sorted) world
    reading.get ⟨album, .int 1⟩ = some (some (.rebuilt found)) ∧
      ∃ cell, repository.read world ⟨album, .int 1⟩ = some cell ∧
        reading.Frame album cell.value found := by
  intro repository put cached found world reading
  have ascending : Value.Ascending [(tagValue 7 0, .int 10), (tagValue 8 1, .int 20)] := by
    simp only [Value.Ascending, List.pairwise_pair]
    decide
  have typed : Typed schema (.entity album) cached := by
    refine typed_album 1 (typed_tag 7 0) ascending fun pair member => ?_
    have cases : pair = (tagValue 7 0, .int 10) ∨ pair = (tagValue 8 1, .int 20) := by
      simpa using member
    rcases cases with rfl | rfl <;> exact typed_tag ..
  have reachable : world.Reachable schema :=
    .put repository Iteration.sorted ⟨tag, tagValue 7 5⟩
      (.put repository Iteration.sorted ⟨album, cached⟩ (.ofCount 1) typed) (typed_tag 7 5)
  have answer : reading.get ⟨album, .int 1⟩ = some (some (.rebuilt found)) := by decide
  exact ⟨answer, Repository.frame_of_get sound reachable repository _ answer⟩

end EntityGen
