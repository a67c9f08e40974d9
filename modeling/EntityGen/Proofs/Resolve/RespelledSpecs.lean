import EntityGen.Proofs.Resolve.Partition
import EntityGen.Proofs.Spec.Respelled
import Mathlib.Data.List.Find

/-! Specs that are spelled with and without raw names. The tables of a round have the same entries
for them, up to the spelling of modules, so that the same specs are accepted and their properties
resolve to the same trees. -/
namespace EntityGen

namespace EntityTable

variable {table other : EntityTable} {specs : List Spec} {a b : Ty}

theorem place_unraw (entity : EntityType) (entries : List EntityType) :
    place entity.unraw (entries.map EntityType.unraw) =
      (place entity entries).map EntityType.unraw := by
  induction entries with
  | nil => rfl
  | cons entry rest ih =>
    rw [List.map_cons, place, place, ih]
    show (if entity.name.text < entry.name.text then _ else _) = _
    split <;> rfl

theorem offer_unraw (table : EntityTable) (entity : EntityType) :
    (table.offer entity).unraw = table.unraw.offer entity.unraw := by
  have looked := table.lookup_unraw entity.name.text
  unfold offer insert
  rw [show table.unraw.lookup entity.unraw.name.text = _ from looked]
  cases table.lookup entity.name.text with
  | some owner => rfl
  | none => exact congrArg EntityTable.mk (place_unraw entity table.entries).symm

theorem offer_of_taken {owner entity : EntityType}
    (taken : table.lookup entity.name.text = some owner) : table.offer entity = table := by
  rw [offer, insert, taken]
  rfl

/-- Types that look alike are looked up alike in tables of the names of specs. -/
theorem readsAlike_of_looksAlike (looks : a.LooksAlike specs b) (same : table.unraw = other.unraw)
    (known : ∀ name, table.contains name → ∃ spec ∈ specs, spec.typeName.text = name) :
    table.ReadsAlike other a b := by
  intro path path' place
  refine ⟨?_, looks.containers path path' place⟩
  rintro x y rfl rfl
  have text : table.lookup x.text = table.lookup y.text := by
    refine List.find?_congr fun entry member => ?_
    obtain ⟨spec, inside, named⟩ := known entry.name.text (contains_iff.mpr ⟨entry, member, rfl⟩)
    rw [← named, Bool.eq_iff_iff, beq_iff_eq, beq_iff_eq]
    exact looks.names x y place spec inside
  rw [text, ← lookup_unraw, same, lookup_unraw]

end EntityTable

namespace Resolution

variable {specs others : List Spec} {spec other : Spec} {known known' : EntityTable}
  {sorted sorted' : Sorted} {i : Nat}

/-- What becomes of a spec, by its id and by who has its name. -/
theorem accept_eq (known table : EntityTable) (spec : Spec) : accept known table spec =
    if (known.resolve spec.idField.ty).mentionsEntity then
      .error ⟨spec.name, .invalid (.entityId spec.idField.name), spec.pos⟩
    else match table.lookup spec.typeName.text with
      | some owner => .error ⟨spec.name, .invalid (.takenName spec.typeName owner.text), spec.pos⟩
      | none => .ok (table.offer spec.type) := by
  have named : spec.type.name = spec.typeName := rfl
  unfold accept EntityTable.offer EntityTable.insert
  rw [named]
  cases table.lookup spec.typeName.text <;> rfl

theorem table_sortOne : (sortOne known sorted spec).table =
    if (known.resolve spec.idField.ty).mentionsEntity then sorted.table
    else sorted.table.offer spec.type := by
  rw [sortOne, accept_eq]
  cases (known.resolve spec.idField.ty).mentionsEntity with
  | true => rfl
  | false =>
    cases taken : sorted.table.lookup spec.typeName.text with
    | none => rfl
    | some owner => exact (EntityTable.offer_of_taken taken).symm

theorem verdict_eq (known : EntityTable) (sorted : Sorted) (spec : Spec) : verdict known sorted spec =
    if (known.resolve spec.idField.ty).mentionsEntity then
      some ⟨spec.name, .invalid (.entityId spec.idField.name), spec.pos⟩
    else (sorted.table.lookup spec.typeName.text).map fun owner =>
      ⟨spec.name, .invalid (.takenName spec.typeName owner.text), spec.pos⟩ := by
  rw [verdict, accept_eq]
  cases (known.resolve spec.idField.ty).mentionsEntity <;>
    cases sorted.table.lookup spec.typeName.text <;> rfl

abbrev LooksAlike (specs : List Spec) : Spec → Spec → Prop :=
  Spec.Respelled (SpecField.LooksAlike specs)

abbrev RespelledAll (specs others : List Spec) : Prop :=
  List.Forall₂ (LooksAlike specs) specs others

theorem type_unraw {R : SpecField → SpecField → Prop} (same : spec.Respelled R other) :
    spec.type.unraw = other.type.unraw := congrArg₂ EntityType.mk same.module same.typeName

theorem idField_respelled (same : LooksAlike specs spec other) :
    spec.idField.LooksAlike specs other.idField := by
  show SpecField.LooksAlike specs spec.fields[spec.id.val] other.fields[other.id.val]
  have bound : spec.id.val < other.fields.length := same.id ▸ other.id.isLt
  simp only [← same.id]
  exact same.fields.get spec.id.isLt bound

theorem candidates_unraw {all : List Spec} (same : List.Forall₂ (LooksAlike all) specs others) :
    (candidates specs).unraw = (candidates others).unraw := by
  suffices general : ∀ start start' : EntityTable, start.unraw = start'.unraw →
      (specs.foldl (fun table spec => table.offer spec.type) start).unraw =
        (others.foldl (fun table spec => table.offer spec.type) start').unraw from
    general {} {} rfl
  induction same with
  | nil => exact fun _ _ begun => begun
  | cons first _ ih =>
    intro start start' begun
    refine ih _ _ ?_
    rw [EntityTable.offer_unraw, EntityTable.offer_unraw, begun, type_unraw first]

/-- The same ids mention entities. -/
theorem mentionsEntity_candidates (same : RespelledAll specs others)
    (here : LooksAlike specs spec other) :
    ((candidates specs).resolve spec.idField.ty).mentionsEntity =
      ((candidates others).resolve other.idField.ty).mentionsEntity := by
  have id := idField_respelled here
  have reads := EntityTable.readsAlike_of_looksAlike id.types (candidates_unraw same)
    fun name => contains_candidates_iff.mp
  have trees := (EntityTable.resolve_unraw_eq_iff id.ty).mpr reads
  rw [← ResolvedType.mentionsEntity_unraw, trees, ResolvedType.mentionsEntity_unraw]

theorem before_unraw (same : RespelledAll specs others) :
    ∀ i ≤ specs.length, (before specs i).table.unraw = (before others i).table.unraw := by
  intro i bound
  induction i with
  | zero => rfl
  | succ i ih =>
    have bound' : i < others.length := same.length_eq ▸ bound
    have here : LooksAlike specs specs[i] others[i] := same.get bound bound'
    rw [before_succ (List.getElem?_eq_getElem bound), before_succ (List.getElem?_eq_getElem bound'),
      table_sortOne, table_sortOne, mentionsEntity_candidates same here]
    split
    next => exact ih (Nat.le_of_succ_le bound)
    next =>
      rw [EntityTable.offer_unraw, EntityTable.offer_unraw, ih (Nat.le_of_succ_le bound),
        type_unraw here]

inductive VerdictAlike : Option SpecError → Option SpecError → Prop
  | accepted : VerdictAlike none none
  | rejected {error other : SpecError} (same : error.fault.Alike other.fault) :
    VerdictAlike (some error) (some other)

theorem verdict_respelled (here : LooksAlike specs spec other)
    (mentions : (known.resolve spec.idField.ty).mentionsEntity =
      (known'.resolve other.idField.ty).mentionsEntity)
    (tables : sorted.table.unraw = sorted'.table.unraw) :
    VerdictAlike (verdict known sorted spec) (verdict known' sorted' other) := by
  rw [verdict_eq, verdict_eq, mentions]
  split
  next => exact .rejected (.invalid _ _)
  next =>
    have owners := sorted.table.lookup_unraw spec.typeName.text
    rw [tables, EntityTable.lookup_unraw, here.typeName] at owners
    rw [here.typeName]
    cases left : sorted.table.lookup other.typeName.text <;>
      cases right : sorted'.table.lookup other.typeName.text <;> rw [left, right] at owners
    · exact .accepted
    · cases owners
    · cases owners
    · exact .rejected (.invalid _ _)

/-- The same specs are accepted. -/
theorem verdicts_respelled (same : RespelledAll specs others) :
    List.Forall₂ VerdictAlike (verdicts specs) (verdicts others) := by
  have length : (verdicts specs).length = specs.length := List.length_mapIdx
  have length' : (verdicts others).length = others.length := List.length_mapIdx
  refine List.forall₂_iff_get.mpr ⟨by rw [length, length', same.length_eq], fun i inside inside' => ?_⟩
  have bound : i < specs.length := length ▸ inside
  have here := same.get bound (length' ▸ inside')
  rw [List.get_eq_getElem, List.get_eq_getElem]
  simp only [verdicts, List.getElem_mapIdx]
  exact verdict_respelled here (mentionsEntity_candidates same here)
    (before_unraw same i (Nat.le_of_lt bound))

theorem table_unraw (same : RespelledAll specs others) :
    (ofSpecs specs).table.unraw = (ofSpecs others).table.unraw := by
  have tables := before_unraw same specs.length (Nat.le_refl _)
  have length := same.length_eq
  rwa [before_length, length, before_length] at tables

theorem contains_table {name : String} (taken : (ofSpecs specs).table.contains name) :
    ∃ spec ∈ specs, spec.typeName.text = name := by
  have faithful := faithful_sort specs
  obtain ⟨entry, member, rfl⟩ := EntityTable.contains_iff.mp taken
  obtain ⟨spec, accepted, rfl⟩ := (faithful.entries entry).mp member
  exact ⟨spec, faithful.members spec accepted, rfl⟩

/-- The properties of a spec are looked up alike. -/
theorem readsAlike_table (same : RespelledAll specs others) {field field' : SpecField}
    (here : field.LooksAlike specs field') :
    (ofSpecs specs).table.ReadsAlike (ofSpecs others).table field.ty field'.ty :=
  EntityTable.readsAlike_of_looksAlike here.types (table_unraw same) fun _ => contains_table

end Resolution

/-- A property in two spellings, with the same tree. -/
structure Property.Respelled (property other : Property) : Prop where
  name : property.name.unraw = other.name.unraw
  isId : property.isId = other.isId
  resolved : property.resolved.unraw = other.resolved.unraw

structure Entity.Respelled (entity other : Entity) : Prop where
  type : entity.type.unraw = other.type.unraw
  ident : entity.spec.ident.unraw = other.spec.ident.unraw
  name : entity.spec.name = other.spec.name
  properties : List.Forall₂ Property.Respelled entity.properties other.properties

/-- Entities of a spec have the same trees if and only if its types are looked up alike. -/
theorem Resolution.entity_respelled_iff {spec other : Spec} {table table' : EntityTable}
    (here : spec.Respelled SpecField.Respelled other) :
    (entity table spec).Respelled (entity table' other) ↔
      List.Forall₂ (fun field field' => table.ReadsAlike table' field.ty field'.ty)
        spec.fields other.fields := by
  have each : List.Forall₂ Property.Respelled (entity table spec).properties
      (entity table' other).properties ↔ List.Forall₂ (fun field field' =>
        table.ReadsAlike table' field.ty field'.ty) spec.fields other.fields := by
    rw [entity, entity, List.forall₂_map_left_iff, List.forall₂_map_right_iff]
    refine forall₂_congr_of here.fields fun field field' alike => ?_
    rw [← EntityTable.resolve_unraw_eq_iff alike.ty]
    exact ⟨Property.Respelled.resolved, fun trees => ⟨alike.name, alike.isId, trees⟩⟩
  exact ⟨fun same => each.mp same.properties, fun looked =>
    ⟨type_unraw here, here.ident, here.name, each.mpr looked⟩⟩

end EntityGen
