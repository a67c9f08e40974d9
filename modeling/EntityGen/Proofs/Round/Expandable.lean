import EntityGen.Proofs.Generated.Readable
import EntityGen.Proofs.Round.Planned
import EntityGen.Proofs.Round.Splicing

/-! When a module can be expanded. Its store module is read once more before it is put in place, so
that what a user has written into it has to be readable where it stands there: the path to the
library that runs it, and the names of modules and properties. Then a module can be expanded
exactly if its round comes to an end. -/
namespace EntityGen

open Code

structure Path.Plain (path : Path) : Prop where
  inhabited : path.segments ≠ []
  bare : ∀ segment ∈ path.segments, ∃ x : Ident, x.IsStep ∧ segment = .bare x

theorem Segment.codes_of_bare {segments : List Segment} (inhabited : segments ≠ [])
    (bare : ∀ segment ∈ segments, ∃ x : Ident, x.IsStep ∧ segment = .bare x) :
    ∃ (names : List Ident) (last : Ident), (∀ x ∈ names, x.IsStep) ∧ last.IsStep ∧
      Segment.codes segments = below names [.word last] := by
  induction segments with
  | nil => exact absurd rfl inhabited
  | cons segment later ih =>
    obtain ⟨⟨x, step, rfl⟩, others⟩ := List.forall_mem_cons.mp bare
    cases later with
    | nil => exact ⟨[], x, List.forall_mem_nil _, step, rfl⟩
    | cons next later =>
      obtain ⟨names, last, steps, final, spelled⟩ := ih (List.cons_ne_nil _ _) others
      refine ⟨x :: names, last, List.forall_mem_cons.mpr ⟨step, steps⟩, final, ?_⟩
      rw [Segment.codes, spelled]
      · rfl
      · exact List.cons_ne_nil _ _

theorem Path.Plain.isPath_code {path : Path} (plain : path.Plain) : IsPath path.code := by
  obtain ⟨names, last, steps, step, spelled⟩ :=
    Segment.codes_of_bare plain.inhabited plain.bare
  refine ⟨path.leading, names, last, steps, step, ?_⟩
  rw [← spelled]
  cases leading : path.leading <;> simp [Path.code, Path.ty, Ty.code, led, sign, leading]

namespace Round

variable {settings : Settings} {items : List Item} {head : ModuleHead}

/-- What comes into the store module from outside can be read there. -/
structure Readable (settings : Settings) (items : List Item) : Prop where
  runtime : settings.runtime.Plain
  modules : ∀ entity ∈ entitiesOf items, ∀ x ∈ entity.spec.module, x.isKeyword = false
  /-- Only an entity that holds others is rebuilt by the names of its properties. -/
  properties : ∀ entity ∈ entitiesOf items,
    (∃ property ∈ entity.properties, property.resolved.holdsEntities) →
    ∀ property ∈ entity.properties, property.name.isKeyword = false

theorem Readable.named (readable : Readable settings items) :
    ∀ entity ∈ entitiesOf items, entity.Named := by
  intro entity member
  refine ⟨List.forall_mem_append.mpr ⟨readable.modules entity member, ?_⟩,
    readable.properties entity member⟩
  exact List.forall_mem_singleton.mpr (of_mem_entitiesOf member).2

theorem StoreUnits.exists_items {store : List GeneratedUnit}
    (units : StoreUnits settings items store) (readable : Readable settings items) :
    ∃ read, Item.listOfCode (store.map GeneratedUnit.code).flatten = .ok read := by
  cases units with
  | none => exact @Item.exists_listOfCode [] (List.forall_mem_nil _)
  | side _ side =>
    have read := side.exists_items readable.runtime.isPath_code readable.named
    rw [List.map_map]
    rwa [List.flatMap_def] at read

/-- The store module that a round leaves behind can be read. -/
theorem exists_items_of_run {round : Round Buffer}
    (done : run settings items Buffer.sink {} = .ok round) (readable : Readable settings items) :
    ∃ read, Item.listOfCode (Expansion.spliceItems [] items round.sink).2.store.flatten =
      .ok read := by
  obtain ⟨store, record, side, -, completed⟩ := exists_completed_of_run done
  have holds : round.sink.Holds (record.map Prod.fst) := by
    rw [completed.sink]
    exact Buffer.holds_nil.offered (record.map Prod.fst)
  obtain ⟨_, -, places⟩ :=
    Expansion.splicesAll_spliceItems [] items round.sink holds.distinct
  have entities : (entityUnits settings.runtime (entitiesOf items)).filter
      (fun unit => unit.placement == .store) = [] := by
    refine List.filter_eq_nil_iff.mpr fun unit member => ?_
    obtain ⟨entity, -, rfl⟩ := List.mem_map.mp member
    exact Bool.false_ne_true
  have stored : store.filter (fun unit => unit.placement == .store) = store :=
    List.filter_eq_self.mpr fun unit member => beq_iff_eq.mpr (side.placement_of_mem member)
  have left : (Expansion.spliceItems [] items round.sink).2.store =
      store.map GeneratedUnit.code := by
    rw [places.store, holds.store, completed.units, List.filter_append, entities, stored,
      List.nil_append]
  rw [left]
  exact side.exists_items readable

/-- A module is expanded if its round comes to an end. -/
theorem exists_ofModule_iff (readable : Readable settings items) :
    (∃ expansion, Expansion.ofModule settings head items = .ok expansion) ↔
      Plannable settings items := by
  rw [← exists_run_iff Buffer.sink {}]
  constructor
  · rintro ⟨expansion, done⟩
    obtain ⟨round, run, -⟩ := Expansion.of_ofModule done
    exact ⟨round, run⟩
  · rintro ⟨round, done⟩
    obtain ⟨read, reads⟩ := exists_items_of_run done readable
    unfold Expansion.ofModule
    rw [done]
    simp only [Except.mapError, bind, Except.bind, reads]
    exact ⟨_, rfl⟩

structure Expands (settings : Settings) (items : List Item) : Prop extends Ends settings items where
  module_iff : Readable settings items → ∀ head : ModuleHead,
    (∃ expansion, Expansion.ofModule settings head items = .ok expansion) ↔
      Plannable settings items

/-- Rounds end, and modules are expanded, wherever the entities can be planned and what comes into
the store module can be read. -/
theorem expands_where_plannable (settings : Settings) (items : List Item) :
    Expands settings items where
  toEnds := ends_where_plannable settings items
  module_iff readable _ := exists_ofModule_iff readable

end Round

namespace Notes

theorem readable_items : Round.Readable {} items where
  runtime := by
    refine ⟨List.cons_ne_nil _ _, List.forall_mem_singleton.mpr ⟨_, ?_, rfl⟩⟩
    decide
  modules := by decide +kernel
  properties := by decide +kernel

theorem plannable_items : Round.Plannable {} items := by
  intro _
  have initials : ∀ entity ∈ Round.entitiesOf items,
      ((Naming.stem entity.name).toList.head?.all Text.isIdentifierStart) = true := by
    decide +kernel
  intro entity member
  simpa [Naming.StemBegins, Option.all_eq_true] using initials entity member

/-- The module of both entities is expanded, with its store module. -/
theorem expandable_items : Round.Readable {} items ∧ Round.Plannable {} items ∧
    ∃ expansion, Expansion.ofModule {} app items = .ok expansion :=
  ⟨readable_items, plannable_items,
    ((Round.expands_where_plannable {} items).module_iff readable_items app).mpr plannable_items⟩

def failure? (settings : Settings) (items : List Item) : Option String :=
  match Expansion.ofModule settings app items with
  | .ok _ => none
  | .error cause => some cause.message

/-- A path to a generic type, which is read as a comparison where a value is expected. -/
def generic : Path :=
  let arg : Ty := .path false [.bare ⟨"b", false⟩]
  ⟨false, [.mk ⟨"a", false⟩ (.angle false [.ty arg] false)]⟩

example : failure? { runtime := generic }
    [spec "tag" ⟨"TagSpec", false⟩ [field [idMark] "id" number]] =
      some "comparison operators cannot be chained" := by
  decide +kernel

end Notes
end EntityGen
