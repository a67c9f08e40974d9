import EntityGen.Proofs.Entity.Held
import EntityGen.Proofs.Resolve.Sorting
import EntityGen.Proofs.Value.Maps
import Mathlib.Data.Set.Finite.List
import Mathlib.Order.WellFoundedSet

/-! What holds of the schemas of generated types, and of their values. Types that contain
themselves by value are none that a program can have; the rest is what resolution sees to. -/
namespace EntityGen

theorem Holds.mem_targets (holds : Holds type value held) : held.type ∈ type.targets := by
  induction holds with
  | self => exact List.mem_singleton_self _
  | inItem _ _ ih => exact ih
  | inKey _ _ ih => exact List.mem_append_left _ ih
  | inValue _ _ ih => exact List.mem_append_right _ ih

namespace Schema

def Known (schema : Schema) (type : EntityType) : Prop := (schema.find? type).isSome

instance (schema : Schema) (type : EntityType) : Decidable (schema.Known type) :=
  inferInstanceAs (Decidable (_ = true))

def Embeds (schema : Schema) (outer inner : EntityType) : Prop :=
  .entity inner ∈ schema.properties outer

structure Sound (schema : Schema) : Prop where
  closed : ∀ entity ∈ schema, ∀ property ∈ entity.properties, ∀ target ∈ property.targets,
    schema.Known target
  plainId : ∀ entity ∈ schema, entity.properties[entity.id].holdsEntities = false
  acyclic : ∀ type, ¬Relation.TransGen schema.Embeds type type

variable {schema : Schema}

theorem known_iff : schema.Known type ↔ type ∈ schema.map EntitySchema.type := by
  simp [Known, find?, List.find?_isSome]

theorem mem_of_find? (found : schema.find? type = some entity) :
    entity ∈ schema ∧ entity.type = type :=
  ⟨List.mem_of_find?_eq_some found, by simpa using List.find?_some found⟩

theorem properties_of_find? (found : schema.find? type = some entity) :
    schema.properties type = entity.properties := by
  simp [properties, found]

theorem mem_properties (member : property ∈ schema.properties type) :
    ∃ entity, schema.find? type = some entity ∧ property ∈ entity.properties := by
  unfold properties at member
  cases found : schema.find? type with
  | none => simp [found] at member
  | some entity => exact ⟨entity, rfl, by simpa [found] using member⟩

theorem HoldsDirectly.embeds (direct : schema.HoldsDirectly owner held) :
    schema.Embeds owner.type held.type := by
  cases direct with | property member => exact (List.of_mem_zip member).1

namespace Sound

theorem known_target (sound : schema.Sound) (member : property ∈ schema.properties type)
    (target : held ∈ property.targets) : schema.Known held := by
  obtain ⟨entity, found, inside⟩ := mem_properties member
  exact sound.closed entity (mem_of_find? found).1 property inside held target

theorem known_of_embeds {outer inner : EntityType} (sound : schema.Sound)
    (embeds : schema.Embeds outer inner) : schema.Known inner :=
  sound.known_target embeds (List.mem_singleton_self _)

theorem known_of_refers (sound : schema.Sound) (refers : schema.Refers owner held) :
    schema.Known held.type := by
  obtain ⟨fields, _, type, value, member, holds⟩ := refers_iff.mp refers
  exact sound.known_target (List.of_mem_zip member).1 holds.mem_targets

/-- Induction on types, from those that contain no others by value. There are finitely many, and
none contains itself. -/
theorem induction (sound : schema.Sound) {motive : EntityType → Prop}
    (step : ∀ outer, schema.Known outer →
      (∀ inner, schema.Embeds outer inner → motive inner) → motive outer)
    (known : schema.Known type) : motive type := by
  let below (inner outer : EntityType) : Prop := Relation.TransGen schema.Embeds outer inner
  have order : IsStrictOrder EntityType below :=
    { irrefl := sound.acyclic, trans := fun _ _ _ lower upper => upper.trans lower }
  have finite : {type | schema.Known type}.Finite :=
    (List.finite_toSet (schema.map EntitySchema.type)).subset fun _ known => known_iff.mp known
  have founded : {type | schema.Known type}.WellFoundedOn below := finite.wellFoundedOn
  exact founded.induction known fun outer known ih => step outer known fun inner embeds =>
    ih inner (sound.known_of_embeds embeds) (.single embeds)

end Sound

/-- If the types can be ranked so that each contains only types of lower rank, none contains
itself. -/
theorem acyclic_of_rank (rank : EntityType → Nat)
    (lower : ∀ outer inner, schema.Embeds outer inner → rank inner < rank outer)
    (type : EntityType) : ¬Relation.TransGen schema.Embeds type type := by
  have general : ∀ outer inner, Relation.TransGen schema.Embeds outer inner →
      rank inner < rank outer := by
    intro outer inner chain
    induction chain with
    | single step => exact lower _ _ step
    | tail _ step ih => exact Nat.lt_trans (lower _ _ step) ih
  exact fun cycle => Nat.lt_irrefl _ (general type type cycle)

end Schema

namespace Resolution

variable {specs : List Spec} {schema : EntitySchema}

theorem mem_schema (member : schema ∈ (ofSpecs specs).schema) :
    ∃ spec ∈ (sort specs).accepted, schema = (entity (sort specs).table spec).schema := by
  obtain ⟨entity, inside, rfl⟩ := List.mem_map.mp member
  obtain ⟨spec, accepted, rfl⟩ := List.mem_map.mp inside
  exact ⟨spec, accepted, rfl⟩

theorem known_of_accepted (accepted : spec ∈ (sort specs).accepted) :
    (ofSpecs specs).schema.Known spec.type := by
  refine Schema.known_iff.mpr (List.mem_map.mpr ⟨(entity (sort specs).table spec).schema, ?_, rfl⟩)
  exact List.mem_map_of_mem (List.mem_map_of_mem accepted)

/-- The schema of generated types is sound if no type contains itself by value. -/
theorem sound_schema (specs : List Spec)
    (acyclic : ∀ type, ¬Relation.TransGen (ofSpecs specs).schema.Embeds type type) :
    (ofSpecs specs).schema.Sound where
  closed := by
    intro schema member property inside target reached
    obtain ⟨spec, -, rfl⟩ := mem_schema member
    obtain ⟨resolved, ofField, rfl⟩ := List.mem_map.mp inside
    obtain ⟨field, -, rfl⟩ := List.mem_map.mp ofField
    have entry := EntityTable.mem_of_mem_targets field.ty reached
    obtain ⟨owner, accepted, rfl⟩ := ((faithful_sort specs).entries target).mp entry
    exact known_of_accepted accepted
  plainId := by
    intro schema member
    obtain ⟨spec, accepted, rfl⟩ := mem_schema member
    have plain := mentionsEntity_id accepted
    refine Bool.eq_false_iff.mpr fun holds => ?_
    have mentions := ResolvedType.mentionsEntity_of_holdsEntities _ holds
    simp only [Entity.schema, entity, property, Fin.getElem_fin, List.getElem_map] at mentions
    exact absurd mentions (Bool.eq_false_iff.mp plain)
  acyclic := acyclic

end Resolution

/-- A value of a type. Entities have one value for each property; maps are in order. -/
inductive Typed (schema : Schema) : ResolvedType → Value → Prop where
  | leaf : Typed schema (.leaf ty) value
  | other : Typed schema (.other raw args) value
  | entity : schema.Known type → fields.length = (schema.properties type).length →
      (∀ property value, (property, value) ∈ (schema.properties type).zip fields →
        Typed schema property value) → Typed schema (.entity type) (.seq fields)
  | list : (∀ item ∈ items, Typed schema elem item) → Typed schema (.list kind elem) (.seq items)
  | map : Value.Ascending pairs → (∀ pair ∈ pairs, Typed schema keyType pair.1) →
      (∀ pair ∈ pairs, Typed schema valueType pair.2) →
      Typed schema (.map kind keyType valueType) (.seq (pairs.map Value.entry))

namespace Typed

variable {schema : Schema}

theorem ofHolds (typed : Typed schema type value) (holds : Holds type value held) :
    Typed schema (.entity held.type) held.value := by
  induction holds with
  | self => exact typed
  | inItem member _ ih => cases typed with | list items => exact ih (items _ member)
  | inKey member _ ih =>
    cases typed with
    | map _ keys _ =>
      obtain ⟨pair, inside, same⟩ := List.mem_map.mp member
      obtain ⟨rfl, rfl⟩ := Value.pair.inj same
      exact ih (keys pair inside)
  | inValue member _ ih =>
    cases typed with
    | map _ _ values =>
      obtain ⟨pair, inside, same⟩ := List.mem_map.mp member
      obtain ⟨rfl, rfl⟩ := Value.pair.inj same
      exact ih (values pair inside)

theorem ofRefers (typed : Typed schema (.entity owner.type) owner.value)
    (refers : schema.Refers owner held) : Typed schema (.entity held.type) held.value := by
  obtain ⟨fields, whole, type, value, member, holds⟩ := Schema.refers_iff.mp refers
  rw [whole] at typed
  cases typed with | entity _ _ properties => exact (properties type value member).ofHolds holds

theorem ofReaches (typed : Typed schema (.entity owner.type) owner.value)
    (reaches : schema.Reaches owner reached) :
    Typed schema (.entity reached.type) reached.value := by
  induction reaches with
  | refl => exact typed
  | tail _ refers ih => exact ih.ofRefers refers

theorem known (typed : Typed schema (.entity type) value) : schema.Known type := by
  cases typed with | entity known => exact known

end Typed

/-! Albums are labelled by a main tag, and by further tags with a weight for each. -/
namespace Album

def tag : EntityType := ⟨[], ⟨"Tag", false⟩⟩

def album : EntityType := ⟨[], ⟨"Album", false⟩⟩

def number : ResolvedType := .leaf .inferred

def schema : Schema :=
  [⟨tag, [number, number], ⟨0, by decide⟩⟩,
    ⟨album, [number, .entity tag, .map .btreeMap (.entity tag) number], ⟨0, by decide⟩⟩]

def tagValue (id color : Int) : Value := .seq [.int id, .int color]

def albumValue (id : Int) (main : Value) (further : List (Value × Value)) : Value :=
  .seq [.int id, main, .seq (further.map Value.entry)]

theorem sound : schema.Sound where
  closed := by
    have tagKnown : schema.Known tag := by decide
    simp only [schema, number, ResolvedType.targets, List.forall_mem_cons]
    simp
    exact tagKnown
  plainId := by simp [schema, number, ResolvedType.holdsEntities]
  acyclic := by
    refine Schema.acyclic_of_rank (fun type => if type = album then 1 else 0) ?_
    intro outer inner embeds
    obtain ⟨entity, found, member⟩ := Schema.mem_properties embeds
    obtain ⟨inside, rfl⟩ := Schema.mem_of_find? found
    have cases : entity = schema[0] ∨ entity = schema[1] := by simpa [schema] using inside
    rcases cases with rfl | rfl
    · simp [schema, number] at member
    · have same : inner = tag := by simpa [schema, number] using member
      subst same
      decide

theorem typed_tag (id color : Int) : Typed schema (.entity tag) (tagValue id color) := by
  refine .entity (by decide) rfl fun property value member => ?_
  have cases : (property, value) = (number, .int id) ∨ (property, value) = (number, .int color) := by
    simpa [Schema.properties, schema, Schema.find?] using member
  rcases cases with ⟨rfl, rfl⟩ | ⟨rfl, rfl⟩ <;> exact .leaf

theorem typed_album (id : Int) (main : Typed schema (.entity tag) mainTag)
    (ascending : Value.Ascending further)
    (keys : ∀ pair ∈ further, Typed schema (.entity tag) pair.1) :
    Typed schema (.entity album) (albumValue id mainTag further) := by
  refine .entity (by decide) rfl fun property value member => ?_
  have cases : (property, value) = (number, .int id) ∨ (property, value) = (.entity tag, mainTag) ∨
      (property, value) = (.map .btreeMap (.entity tag) number, .seq (further.map Value.entry)) := by
    simpa [Schema.properties, schema, Schema.find?, album, tag] using member
  rcases cases with ⟨rfl, rfl⟩ | ⟨rfl, rfl⟩ | ⟨rfl, rfl⟩
  · exact .leaf
  · exact main
  · exact .map ascending keys fun _ _ => .leaf

end Album
end EntityGen
