import EntityGen.Semantics.Schema
import Mathlib.Logic.Relation

/-! The entities that an entity holds: those that are the values of its properties, and those that
stand in containers. From an entity all are reached that it holds, that these hold, and so on. -/
namespace EntityGen

/-- An entity stands in a value: it is the value, or it stands in an element of a list or on
either side of an entry of a map. -/
inductive Holds : ResolvedType → Value → EntityValue → Prop where
  | self : Holds (.entity type) value ⟨type, value⟩
  | inItem : item ∈ items → Holds elem item held → Holds (.list kind elem) (.seq items) held
  | inKey : Value.pair key value ∈ entries → Holds keyType key held →
      Holds (.map kind keyType valueType) (.seq entries) held
  | inValue : Value.pair key value ∈ entries → Holds valueType value held →
      Holds (.map kind keyType valueType) (.seq entries) held

namespace Holds

theorem holdsEntities (holds : Holds type value held) : type.holdsEntities = true := by
  induction holds with
  | self => rfl
  | inItem _ _ ih => exact ih
  | inKey _ _ ih => simp [ResolvedType.holdsEntities, ih]
  | inValue _ _ ih => simp [ResolvedType.holdsEntities, ih]

theorem false_of_rest (notEntity : ∀ target, type = .entity target → False)
    (notList : ∀ kind elem items, type = .list kind elem → value = .seq items → False)
    (notMap : ∀ kind keyType valueType entries, type = .map kind keyType valueType →
      value = .seq entries → False) : ¬Holds type value held := by
  intro holds
  cases holds with
  | self => exact notEntity _ rfl
  | inItem => exact notList _ _ _ rfl rfl
  | inKey | inValue => exact notMap _ _ _ _ rfl rfl

theorem sizeOf_le (holds : Holds type value held) : sizeOf held.value ≤ sizeOf value := by
  induction holds with
  | self => exact Nat.le_refl _
  | inItem member _ ih =>
    have inside := List.sizeOf_lt_of_mem member
    rw [Value.seq.sizeOf_spec]
    omega
  | inKey member _ ih =>
    have inside := List.sizeOf_lt_of_mem member
    rw [Value.pair.sizeOf_spec] at inside
    rw [Value.seq.sizeOf_spec]
    omega
  | inValue member _ ih =>
    have inside := List.sizeOf_lt_of_mem member
    rw [Value.pair.sizeOf_spec] at inside
    rw [Value.seq.sizeOf_spec]
    omega

@[simp] theorem entity_iff : Holds (.entity type) value held ↔ held = ⟨type, value⟩ := by
  constructor
  · intro holds; cases holds; rfl
  · rintro rfl; exact .self

@[simp] theorem list_iff : Holds (.list kind elem) (.seq items) held ↔
    ∃ item ∈ items, Holds elem item held := by
  constructor
  · intro holds; cases holds with | inItem member holds => exact ⟨_, member, holds⟩
  · rintro ⟨item, member, holds⟩; exact .inItem member holds

@[simp] theorem map_iff : Holds (.map kind keyType valueType) (.seq entries) held ↔
    ∃ key value, .pair key value ∈ entries ∧ (Holds keyType key held ∨ Holds valueType value held) := by
  constructor
  · intro holds
    cases holds with
    | inKey member holds => exact ⟨_, _, member, .inl holds⟩
    | inValue member holds => exact ⟨_, _, member, .inr holds⟩
  · rintro ⟨key, value, member, holds | holds⟩
    · exact .inKey member holds
    · exact .inValue member holds

end Holds

namespace Schema

inductive HoldsDirectly (schema : Schema) : EntityValue → EntityValue → Prop where
  | property : (.entity type, value) ∈ (schema.properties owner).zip fields →
      HoldsDirectly schema ⟨owner, .seq fields⟩ ⟨type, value⟩

inductive HoldsInContainer (schema : Schema) : EntityValue → EntityValue → Prop where
  | property : (type, value) ∈ (schema.properties owner).zip fields →
      (∀ target, type ≠ .entity target) → Holds type value held →
      HoldsInContainer schema ⟨owner, .seq fields⟩ held

def Refers (schema : Schema) (owner held : EntityValue) : Prop :=
  schema.HoldsDirectly owner held ∨ schema.HoldsInContainer owner held

/-- An entity is another one, or is reached from an entity that this one holds. -/
def Reaches (schema : Schema) : EntityValue → EntityValue → Prop :=
  Relation.ReflTransGen schema.Refers

variable {schema : Schema}

theorem refers_iff : schema.Refers owner held ↔ ∃ fields, owner.value = .seq fields ∧
    ∃ type value, (type, value) ∈ (schema.properties owner.type).zip fields ∧
      Holds type value held := by
  constructor
  · rintro (direct | contained)
    · cases direct with | property member => exact ⟨_, rfl, _, _, member, .self⟩
    · cases contained with | property member _ holds => exact ⟨_, rfl, _, _, member, holds⟩
  · obtain ⟨owner, whole⟩ := owner
    rintro ⟨fields, rfl, type, value, member, holds⟩
    by_cases direct : ∃ target, type = .entity target
    · obtain ⟨target, rfl⟩ := direct
      obtain rfl := Holds.entity_iff.mp holds
      exact .inl (.property member)
    · exact .inr (.property member (fun target same => direct ⟨target, same⟩) holds)

theorem reaches_iff : schema.Reaches owner reached ↔
    reached = owner ∨ ∃ held, schema.Refers owner held ∧ schema.Reaches held reached := by
  rw [Reaches, Relation.ReflTransGen.cases_head_iff, eq_comm]

theorem eq_of_slot_eq {a b : EntityValue} (place : schema.slot a = schema.slot b)
    (values : a.value = b.value) : a = b := by
  obtain ⟨type, value⟩ := a
  obtain ⟨other, found⟩ := b
  obtain rfl : value = found := values
  obtain rfl : type = other := congrArg Slot.type place
  rfl

theorem Refers.sizeOf_lt (refers : schema.Refers owner held) :
    sizeOf held.value < sizeOf owner.value := by
  obtain ⟨fields, whole, type, value, member, holds⟩ := refers_iff.mp refers
  have inside := List.sizeOf_lt_of_mem (List.of_mem_zip member).2
  have nested := holds.sizeOf_le
  rw [whole, Value.seq.sizeOf_spec]
  omega

end Schema
end EntityGen
