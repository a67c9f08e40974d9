import EntityGen.Proofs.Entity.Sound
import EntityGen.Proofs.Reading.Rebuild
import EntityGen.Semantics.Operand

/-! The places in an entity: its properties in the order of declaration, and in each property the
entities in the order in which a walk meets them. -/
namespace EntityGen

/-- The entities in a value, in the order in which they are met: those in the key of an entry
before those in its value. -/
def positions : ResolvedType → Value → Iteration → List EntityValue
  | .entity type, value, _ => [⟨type, value⟩]
  | .list _ elem, .seq items, iteration =>
    (items.mapIdx fun i item => positions elem item (iteration.within i)).flatten
  | .map kind keyType valueType, .seq entries, iteration =>
    (iteration.arrange kind entries (entries.mapIdx fun i entry =>
      positions keyType entry.key (iteration.within (2 * i)) ++
        positions valueType entry.content (iteration.within (2 * i + 1)))).flatten
  | _, _, _ => []

namespace Datum

variable {type : ResolvedType} {value : Value} {iteration : Iteration} {item : Datum}
  {entry : Datum × Datum}

def positions (datum : Datum) : List EntityValue :=
  EntityGen.positions datum.type datum.value datum.iteration

theorem positions_list (kind : ListKind) (elem : ResolvedType) (value : Value)
    (iteration : Iteration) : positions ⟨.list kind elem, value, iteration⟩ =
      (elements ⟨.list kind elem, value, iteration⟩).flatMap positions := by
  cases value with
  | seq items => simp only [positions, EntityGen.positions, elements, List.flatMap, map_mapIdx]
  | _ => rfl

theorem positions_map (kind : MapKind) (keyType valueType : ResolvedType) (value : Value)
    (iteration : Iteration) : positions ⟨.map kind keyType valueType, value, iteration⟩ =
      (entries ⟨.map kind keyType valueType, value, iteration⟩).flatMap
        fun entry => entry.1.positions ++ entry.2.positions := by
  cases value with
  | seq entries =>
    simp only [positions, EntityGen.positions, Datum.entries, List.flatMap,
      ← Iteration.arrange_map, map_mapIdx]
  | _ => rfl

theorem type_of_mem_elements (member : item ∈ elements ⟨.list kind elem, value, iteration⟩) :
    item.type = elem := by
  cases value with
  | seq items =>
    obtain ⟨i, bound, rfl⟩ := List.mem_mapIdx.mp member
    rfl
  | _ => cases member

theorem types_of_mem_entries
    (member : entry ∈ entries ⟨.map kind keyType valueType, value, iteration⟩) :
    entry.1.type = keyType ∧ entry.2.type = valueType := by
  cases value with
  | seq items =>
    obtain ⟨i, bound, rfl⟩ := List.mem_mapIdx.mp (Iteration.mem_of_mem_arrange _ _ _ _ member)
    exact ⟨rfl, rfl⟩
  | _ => cases member

theorem positions_of_plain (plain : type.holdsEntities = false) (value : Value)
    (iteration : Iteration) : positions ⟨type, value, iteration⟩ = [] := by
  induction type using ResolvedType.holdsEntities.induct generalizing value iteration with
  | case1 | case5 => rfl
  | case2 => cases plain
  | case3 kind elem ih =>
    rw [positions_list, List.flatMap_eq_nil_iff]
    rintro ⟨type, value, iteration⟩ member
    obtain rfl : type = elem := type_of_mem_elements member
    exact ih plain value iteration
  | case4 kind keyType valueType keys values =>
    rw [ResolvedType.holdsEntities, Bool.or_eq_false_iff] at plain
    rw [positions_map, List.flatMap_eq_nil_iff]
    rintro ⟨⟨type, value, iteration⟩, ⟨other, content, order⟩⟩ member
    obtain ⟨rfl, rfl⟩ := types_of_mem_entries member
    rw [keys plain.1, values plain.2, List.append_nil]

/-- The entities that are met are those that the value holds. -/
theorem mem_positions_iff {schema : Schema} (typed : Typed schema type value)
    (iteration : Iteration) :
    held ∈ positions ⟨type, value, iteration⟩ ↔ Holds type value held := by
  induction typed generalizing iteration with
  | leaf | other =>
    exact iff_of_false (List.not_mem_nil) fun holds => nomatch holds
  | entity => exact List.mem_singleton.trans Holds.entity_iff.symm
  | @list items elem kind _ ih =>
    rw [positions_list, List.mem_flatMap, Holds.list_iff]
    constructor
    · rintro ⟨_, member, inside⟩
      obtain ⟨i, bound, rfl⟩ := List.mem_mapIdx.mp member
      exact ⟨_, List.getElem_mem bound, (ih _ (List.getElem_mem bound) _).mp inside⟩
    · rintro ⟨item, member, holds⟩
      obtain ⟨i, bound, rfl⟩ := List.getElem_of_mem member
      exact ⟨_, List.mem_mapIdx.mpr ⟨i, bound, rfl⟩, (ih _ member _).mpr holds⟩
  | @map pairs keyType valueType kind _ _ _ keys values =>
    rw [positions_map, List.mem_flatMap, Holds.map_iff]
    constructor
    · rintro ⟨_, member, inside⟩
      obtain ⟨i, bound, rfl⟩ := List.mem_mapIdx.mp (Iteration.mem_of_mem_arrange _ _ _ _ member)
      obtain ⟨pair, among, same⟩ := List.mem_map.mp (List.getElem_mem bound)
      rw [← same, List.mem_append] at inside
      exact ⟨pair.1, pair.2, List.mem_map_of_mem among,
        inside.imp (keys pair among _).mp (values pair among _).mp⟩
    · rintro ⟨key, value, member, holds⟩
      obtain ⟨i, bound, same⟩ := List.getElem_of_mem member
      obtain ⟨pair, among, entry⟩ := List.mem_map.mp member
      obtain ⟨rfl, rfl⟩ := Value.pair.inj entry
      refine ⟨_, (Iteration.arrange_perm _ _ _ _ (by simp)).mem_iff.mpr
        (List.mem_mapIdx.mpr ⟨i, bound, rfl⟩), ?_⟩
      rw [same, List.mem_append]
      exact holds.imp (keys pair among _).mpr (values pair among _).mpr

def row (types : List ResolvedType) (values : List Value) (iteration : Iteration) :
    List Datum :=
  (types.zip values).mapIdx fun i part => ⟨part.1, part.2, iteration.property i⟩

variable {types : List ResolvedType} {values : List Value}

theorem row_cons (type : ResolvedType) (types : List ResolvedType) (value : Value)
    (values : List Value) (iteration : Iteration) :
    row (type :: types) (value :: values) iteration =
      ⟨type, value, iteration.within 0⟩ :: row types values (iteration.within 1) := by
  simp only [row, List.zip_cons_cons, List.mapIdx_cons]
  rfl

theorem mem_zip_of_mem_row (member : item ∈ row types values iteration) :
    (item.type, item.value) ∈ types.zip values := by
  obtain ⟨i, bound, rfl⟩ := List.mem_mapIdx.mp member
  exact List.getElem_mem bound

theorem exists_mem_row (member : (type, value) ∈ types.zip values) (iteration : Iteration) :
    ∃ order, ⟨type, value, order⟩ ∈ row types values iteration := by
  obtain ⟨i, bound, same⟩ := List.getElem_of_mem member
  exact ⟨_, List.mem_mapIdx.mpr ⟨i, bound, by rw [same]⟩⟩

end Datum

namespace Schema

variable {schema : Schema} {entity inner : EntityValue} {datum : Datum} {iteration : Iteration}

def data (schema : Schema) (entity : EntityValue) (iteration : Iteration) : List Datum :=
  match entity.value with
  | .seq fields => Datum.row (schema.properties entity.type) fields iteration
  | _ => []

/-- The entities that an entity holds in its properties, each as often as it stands there. -/
def held (schema : Schema) (entity : EntityValue) (iteration : Iteration) : List EntityValue :=
  (schema.data entity iteration).flatMap Datum.positions

theorem type_mem_of_mem_data (member : datum ∈ schema.data entity iteration) :
    datum.type ∈ schema.properties entity.type := by
  unfold data at member
  split at member
  next => exact (List.of_mem_zip (Datum.mem_zip_of_mem_row member)).1
  next => cases member

theorem typed_of_mem_data (typed : Typed schema (.entity entity.type) entity.value)
    (member : datum ∈ schema.data entity iteration) : Typed schema datum.type datum.value := by
  obtain ⟨type, value⟩ := entity
  cases typed with
  | entity _ _ properties => exact properties _ _ (Datum.mem_zip_of_mem_row member)

/-- What an entity holds are the entities that it refers to. -/
theorem mem_held_iff (typed : Typed schema (.entity entity.type) entity.value)
    (iteration : Iteration) :
    inner ∈ schema.held entity iteration ↔ schema.Refers entity inner := by
  rw [held, List.mem_flatMap, Schema.refers_iff]
  constructor
  · rintro ⟨datum, member, among⟩
    have holds := (Datum.mem_positions_iff (typed_of_mem_data typed member) _).mp among
    obtain ⟨type, value⟩ := entity
    cases typed with
    | entity => exact ⟨_, rfl, _, _, Datum.mem_zip_of_mem_row member, holds⟩
  · rintro ⟨fields, whole, type, value, member, holds⟩
    obtain ⟨order, inside⟩ := Datum.exists_mem_row member iteration
    have inside : ⟨type, value, order⟩ ∈ schema.data entity iteration := by
      rw [data, whole]; exact inside
    exact ⟨_, inside, (Datum.mem_positions_iff (typed_of_mem_data typed inside) _).mpr holds⟩

end Schema
end EntityGen
