import EntityGen.Proofs.Generated.StoreSide
import EntityGen.Proofs.Round.Reports
import EntityGen.Round.Basic

/-! What a round offers to a sink, and what it reports. The units are settled before the first of
them is offered, so that no answer of the sink has a part in what comes after it but for the report
of a refusal. -/
namespace EntityGen

abbrev Record := List (GeneratedUnit × Option Refusal)

/-- The sink with a record of what it was offered. -/
def Sink.recorded {σ : Type} (sink : Sink σ) : Sink (σ × Record) := fun unit (state, record) =>
  let (next, answer) := sink unit state
  ((next, record ++ [(unit, answer)]), answer)

theorem Sink.recorded_eq {σ : Type} {sink : Sink σ} {unit : GeneratedUnit} {next : σ}
    {answer : Option Refusal} {state : σ × Record} (answered : sink unit state.1 = (next, answer)) :
    sink.recorded unit state = ((next, state.2 ++ [(unit, answer)]), answer) := by
  simp [recorded, answered]

namespace Round

section Steps

variable {σ : Type} {entities : List Entity} {sink : Sink σ} {state : State σ} {next : σ}
  {unit : GeneratedUnit}

theorem step_of_accepted (answered : sink unit state.sink = (next, none)) :
    step sink entities state (.offer unit) =
      { state with accepted := state.accepted + 1, sink := next } := by
  simp [step, answered]

theorem step_of_refused {refusal : Refusal}
    (answered : sink unit state.sink = (next, some refusal)) :
    step sink entities state (.offer unit) =
      let diagnostic := Diagnostic.refused refusal (specName? entities unit.placement)
      { state with reports := state.reports.add diagnostic, sink := next } := by
  simp [step, answered]

def offered (sink : Sink σ) (start : σ) (units : List GeneratedUnit) : σ :=
  units.foldl (fun state unit => (sink unit state).1) start

theorem sink_step : (step sink entities state (.offer unit)).sink = (sink unit state.sink).1 := by
  rcases answered : sink unit state.sink with ⟨next, _ | refusal⟩
  · rw [step_of_accepted answered]
  · rw [step_of_refused answered]

theorem sink_foldl (units : List GeneratedUnit) (clashes : List Clash) :
    ((units.map Event.offer ++ clashes.map Event.clash).foldl (step sink entities) state).sink =
      offered sink state.sink units := by
  have reported (state : State σ) :
      ((clashes.map Event.clash).foldl (step sink entities) state).sink = state.sink := by
    refine List.foldlRecOn (motive := fun reached : State σ => reached.sink = state.sink) _ _ rfl ?_
    intro reached same event member
    obtain ⟨clash, -, rfl⟩ := List.mem_map.mp member
    exact same
  rw [List.foldl_append, reported, List.foldl_map, offered]
  exact (List.foldl_hom State.sink fun _ _ => sink_step.symm).symm

end Steps

variable {σ : Type} {settings : Settings} {items : List Item} {runtime : Path}
  {entities : List Entity} {sink : Sink σ} {state : State (σ × Record)} {event : Event}
  {earlier : List Diagnostic} {units : List GeneratedUnit} {clashes : List Clash}

def refused? (entities : List Entity) : GeneratedUnit × Option Refusal → Option Diagnostic :=
  fun (unit, answer) => answer.map fun refusal =>
    .refused refusal (specName? entities unit.placement)

def State.unrecorded (state : State (σ × Record)) : State σ :=
  { state with sink := state.sink.1 }

theorem unrecorded_step : (step sink.recorded entities state event).unrecorded =
    step sink entities state.unrecorded event := by
  cases event with
  | clash => rfl
  | offer unit =>
    rcases answered : sink unit state.sink.1 with ⟨next, _ | refusal⟩
    · rw [step_of_accepted (Sink.recorded_eq answered), step_of_accepted answered]
      rfl
    · rw [step_of_refused (Sink.recorded_eq answered), step_of_refused answered]
      rfl

/-- Keeping a record changes nothing else. -/
theorem unrecorded_foldl (sink : Sink σ) (state : State (σ × Record)) (events : List Event) :
    (events.foldl (step sink.recorded entities) state).unrecorded =
      events.foldl (step sink entities) state.unrecorded :=
  (List.foldl_hom State.unrecorded fun _ _ => unrecorded_step.symm).symm

/-- What is known of a round that has reported `earlier`, offered `units` and met `clashes`. -/
structure Offered (entities : List Entity) (earlier : List Diagnostic)
    (units : List GeneratedUnit) (clashes : List Clash) (state : State (σ × Record)) : Prop where
  units : state.sink.2.map Prod.fst = units
  accepted : state.accepted = state.sink.2.countP fun offer => offer.2.isNone
  diagnostics : state.reports.diagnostics = Diagnostic.firsts
    (earlier ++ state.sink.2.filterMap (refused? entities) ++ clashes.map .clash)

theorem Offered.offer (offered : Offered entities earlier units [] state) (sink : Sink σ)
    (unit : GeneratedUnit) : Offered entities earlier (units ++ [unit]) []
      (step sink.recorded entities state (.offer unit)) := by
  obtain ⟨sameUnits, accepted, diagnostics⟩ := offered
  rcases answered : sink unit state.sink.1 with ⟨next, _ | refusal⟩
  · rw [step_of_accepted (Sink.recorded_eq answered)]
    exact ⟨by simp [sameUnits], by simp [accepted],
      by simp [diagnostics, List.filterMap_cons, refused?]⟩
  · have reported := Reports.diagnostics_add diagnostics
      (.refused refusal (specName? entities unit.placement))
    rw [step_of_refused (Sink.recorded_eq answered)]
    exact ⟨by simp [sameUnits], by simp [accepted], by simpa [refused?] using reported⟩

theorem Offered.clash (offered : Offered entities earlier units clashes state) (sink : Sink σ)
    (clash : Clash) : Offered entities earlier units (clashes ++ [clash])
      (step sink.recorded entities state (.clash clash)) := by
  refine ⟨offered.units, offered.accepted, ?_⟩
  rw [List.map_append, ← List.append_assoc]
  exact Reports.diagnostics_addClash offered.diagnostics clash

theorem Offered.offerAll (offered : Offered entities earlier units [] state) (sink : Sink σ)
    (later : List GeneratedUnit) : Offered entities earlier (units ++ later) []
      ((later.map Event.offer).foldl (step sink.recorded entities) state) := by
  induction later generalizing units state with
  | nil => simpa using offered
  | cons unit rest ih =>
    rw [List.append_cons]
    exact ih (offered.offer sink unit)

theorem Offered.clashAll (offered : Offered entities earlier units clashes state) (sink : Sink σ)
    (later : List Clash) : Offered entities earlier units (clashes ++ later)
      ((later.map Event.clash).foldl (step sink.recorded entities) state) := by
  induction later generalizing clashes state with
  | nil => simpa using offered
  | cons clash rest ih =>
    rw [List.append_cons]
    exact ih (offered.clash sink clash)

def entitiesOf (items : List Item) : List Entity :=
  (Resolution.ofSpecs (Intake.ofItems [] items).specs).entities

def found (settings : Settings) (items : List Item) : List Diagnostic :=
  let intake := Intake.ofItems [] items
  (intake.errors ++ (Resolution.ofSpecs intake.specs).errors).map .spec ++
    (storeClash? settings items).toList.map .clash

def entityUnits (runtime : Path) (entities : List Entity) : List GeneratedUnit :=
  entities.map fun entity => (entity.typeDecl runtime).unit

/-- There is something to store, a place for it, and a method for each entity. -/
structure HasStoreSide (settings : Settings) (items : List Item) : Prop where
  inhabited : entitiesOf items ≠ []
  free : storeClash? settings items = none
  apart : Entity.Apart (entitiesOf items)

inductive StoreUnits (settings : Settings) (items : List Item) : List GeneratedUnit → Prop
  | none (missing : ¬HasStoreSide settings items) : StoreUnits settings items []
  | side (present : HasStoreSide settings items)
    (side : StoreSide settings.runtime (entitiesOf items)) :
    StoreUnits settings items (side.decls.map TypeDecl.unit)

/-- Parts of the store side are passed, as there is nothing to store or no place for it. -/
def passesStore (settings : Settings) (items : List Item) : Bool :=
  (entitiesOf items).isEmpty || (storeClash? settings items).isSome

theorem passesStore_eq_false_iff : passesStore settings items = false ↔
    entitiesOf items ≠ [] ∧ storeClash? settings items = none := by
  simp [passesStore]

/-- The reports of parts that cannot be generated. -/
def unplanned (settings : Settings) (items : List Item) : List Clash :=
  if passesStore settings items then []
  else (Part.all.filter Part.inStore).filterMap fun part => part.accessorClash? (entitiesOf items)

theorem eventsOf_entity : eventsOf runtime entities .entity =
    .ok ((entityUnits runtime entities).map .offer) := by
  have decls : Part.entity.decls runtime entities =
      .ok (entities.map fun entity => entity.typeDecl runtime) := rfl
  simp [eventsOf, decls, entityUnits]

variable {part : Part} {group : List Event}

theorem eventsOf_of_clash {clash : Clash} (stored : part.inStore)
    (found : part.accessorClash? entities = some clash) :
    eventsOf runtime entities part = .ok [.clash clash] := by
  rw [eventsOf, Part.decls_of_clash stored found]

theorem exists_decls_of_eventsOf (apart : Entity.Apart entities)
    (done : eventsOf runtime entities part = .ok group) :
    ∃ decls, part.decls runtime entities = .ok decls ∧
      group = decls.map fun decl => .offer decl.unit := by
  cases found : part.decls runtime entities with
  | ok decls =>
    rw [eventsOf, found] at done
    exact ⟨decls, rfl, (Except.ok.inj done).symm⟩
  | error cause =>
    cases cause with
    | badName =>
      rw [eventsOf, found] at done
      cases done
    | clash clash => exact absurd found (Part.decls_ne_clash apart)

variable {parts : List Part} {groups : List (List Event)}

theorem flatten_of_shared (shared : ¬Entity.Apart entities) (stored : ∀ part ∈ parts, part.inStore)
    (done : List.Forall₂ (fun part group => eventsOf runtime entities part = .ok group)
      parts groups) :
    groups.flatten =
      (parts.filterMap fun part => part.accessorClash? entities).map Event.clash := by
  induction done with
  | nil => rfl
  | @cons part group _ _ first _ ih =>
    obtain ⟨here, later⟩ := List.forall_mem_cons.mp stored
    obtain ⟨clash, found⟩ := Option.ne_none_iff_exists'.mp
      (mt (Part.accessorClash?_eq_none_iff part).mp shared)
    rw [eventsOf_of_clash here found] at first
    obtain rfl := Except.ok.inj first
    simp [ih later, found]

theorem flatten_of_apart (apart : Entity.Apart entities)
    (done : List.Forall₂ (fun part group => eventsOf runtime entities part = .ok group)
      parts groups) :
    ∃ decls, List.Forall₂ (fun part group => Part.decls part runtime entities = .ok group)
        parts decls ∧
      groups.flatten = decls.flatten.map fun decl => .offer decl.unit := by
  induction done with
  | nil => exact ⟨[], .nil, rfl⟩
  | cons first _ ih =>
    obtain ⟨group, here, rfl⟩ := exists_decls_of_eventsOf apart first
    obtain ⟨others, later, same⟩ := ih
    exact ⟨group :: others, .cons here later, by simp [same]⟩

theorem parts_eq (skipped : Bool) :
    Part.all.filter (fun part => !(part.inStore && skipped)) =
      .entity :: if skipped then [] else Part.all.filter Part.inStore := by
  cases skipped <;> rfl

theorem exists_storeUnits
    (done : List.Forall₂
      (fun part group => eventsOf settings.runtime (entitiesOf items) part = .ok group)
      (if passesStore settings items then [] else Part.all.filter Part.inStore) groups) :
    ∃ store, StoreUnits settings items store ∧
      groups.flatten = store.map .offer ++ (unplanned settings items).map .clash := by
  by_cases passed : passesStore settings items
  · rw [if_pos passed] at done
    obtain _ | _ := done
    refine ⟨[], .none fun present => ?_, by simp [unplanned, passed]⟩
    rw [passesStore_eq_false_iff.mpr ⟨present.inhabited, present.free⟩] at passed
    cases passed
  · obtain ⟨inhabited, free⟩ := passesStore_eq_false_iff.mp (Bool.eq_false_iff.mpr passed)
    rw [if_neg passed] at done
    rw [unplanned, if_neg passed]
    by_cases apart : Entity.Apart (entitiesOf items)
    · obtain ⟨decls, done, same⟩ := flatten_of_apart apart done
      obtain ⟨side, sides⟩ := StoreSide.of_decls done
      refine ⟨_, .side ⟨inhabited, free, apart⟩ side, ?_⟩
      simp [same, sides, (Part.accessorClash?_eq_none_iff _).mpr apart]
    · refine ⟨[], .none fun present => apart present.apart, flatten_of_shared apart ?_ done⟩
      exact fun part member => (List.mem_filter.mp member).2

/-- A round offers the entities and then the store side, or reports why there is none. -/
theorem events_eq {all : List Event}
    (done : events settings.runtime (entitiesOf items) (storeClash? settings items).isSome =
      .ok all) :
    ∃ store, StoreUnits settings items store ∧
      all = (entityUnits settings.runtime (entitiesOf items) ++ store).map .offer ++
        (unplanned settings items).map .clash := by
  obtain ⟨groups, grouped, done⟩ := ok_of_bind done
  obtain rfl := Except.ok.inj done
  rw [parts_eq] at grouped
  obtain _ | ⟨first, rest⟩ := forall₂_of_mapM grouped
  rw [eventsOf_entity] at first
  obtain rfl := Except.ok.inj first
  obtain ⟨store, units, same⟩ := exists_storeUnits rest
  exact ⟨store, units, by simp [same]⟩

theorem StoreUnits.names {store : List GeneratedUnit} (units : StoreUnits settings items store) :
    (HasStoreSide settings items → store.map GeneratedUnit.name = Naming.storeTypes) ∧
      (¬HasStoreSide settings items → store = []) := by
  cases units with
  | none missing => exact ⟨fun present => absurd present missing, fun _ => rfl⟩
  | side present side =>
    refine ⟨fun _ => ?_, fun missing => absurd present missing⟩
    rw [← side.names_decls, List.map_map]
    rfl

theorem StoreUnits.placement_of_mem {store : List GeneratedUnit} {unit : GeneratedUnit}
    (units : StoreUnits settings items store) (member : unit ∈ store) :
    unit.placement = .store := by
  cases units with
  | none => cases member
  | side _ side =>
    obtain ⟨decl, inside, rfl⟩ := List.mem_map.mp member
    exact StoreSide.placement_of_mem inside

def ended (items : List Item) (state : State σ) : Round σ :=
  ⟨entitiesOf items, state.reports, state.accepted, state.sink⟩

/-- A round runs through its events from the reports on specs and on the store module. -/
theorem exists_run_eq {all : List Event}
    (done : events settings.runtime (entitiesOf items) (storeClash? settings items).isSome =
      .ok all) :
    ∃ reports : Reports, reports.diagnostics = Diagnostic.firsts (found settings items) ∧
      ∀ {σ : Type} (sink : Sink σ) (start : σ), run settings items sink start =
        .ok (ended items (all.foldl (step sink (entitiesOf items)) ⟨reports, 0, start⟩)) := by
  let intake := Intake.ofItems [] items
  let errors := intake.errors ++ (Resolution.ofSpecs intake.specs).errors
  let rejected := Reports.addAll { warnings := intake.warnings } (errors.map .spec)
  have nothing : Reports.diagnostics { warnings := intake.warnings } = Diagnostic.firsts [] := rfl
  have kept : rejected.diagnostics = Diagnostic.firsts (errors.map .spec) :=
    Reports.diagnostics_addAll nothing _
  refine ⟨((storeClash? settings items).map rejected.addClash).getD rejected, ?_, ?_⟩
  · have all : found settings items =
        errors.map .spec ++ (storeClash? settings items).toList.map .clash := rfl
    rw [all]
    cases storeClash? settings items with
    | none => rwa [Option.toList_none, List.map_nil, List.append_nil]
    | some clash => exact Reports.diagnostics_addClash kept clash
  · intro σ sink start
    change (events settings.runtime (entitiesOf items) (storeClash? settings items).isSome >>= _) = _
    rw [done]
    rfl

/-- The report of a unit for an entity names a spec that is declared by the same struct. -/
theorem exists_specName? {entity : Entity} (member : entity ∈ entities) :
    ∃ owner ∈ entities, owner.spec.module = entity.spec.module ∧
      owner.spec.ident = entity.spec.ident ∧
      specName? entities (.entity entity.spec.module entity.spec.ident) = some owner.spec.name := by
  let declares (owner : Entity) : Bool :=
    owner.spec.module == entity.spec.module && owner.spec.ident == entity.spec.ident
  have named : (entities.find? declares).isSome :=
    List.find?_isSome.mpr ⟨entity, member, by simp [declares]⟩
  obtain ⟨owner, found⟩ := Option.isSome_iff_exists.mp named
  obtain ⟨sameModule, sameIdent⟩ : owner.spec.module = entity.spec.module ∧
      owner.spec.ident = entity.spec.ident := by simpa [declares] using List.find?_some found
  exact ⟨owner, List.mem_of_find?_eq_some found, sameModule, sameIdent,
    congrArg (Option.map _) found⟩

/-- What a round answers, by the record of what it offered. -/
structure Completed (settings : Settings) (items : List Item) (store : List GeneratedUnit)
    (sink : Sink σ) (start : σ) (round : Round σ) (record : Record) : Prop where
  entities : round.entities = entitiesOf items
  units : record.map Prod.fst = entityUnits settings.runtime (entitiesOf items) ++ store
  sink : round.sink = offered sink start (record.map Prod.fst)
  accepted : round.accepted = record.countP fun offer => offer.2.isNone
  /-- Reports stand in the order of what they report, each kind and message once. -/
  diagnostics : round.reports.diagnostics = Diagnostic.firsts (found settings items ++
    record.filterMap (refused? (entitiesOf items)) ++ (unplanned settings items).map .clash)
  /-- No refusal goes without a report. -/
  refusals : ∀ unit refusal, (unit, some refusal) ∈ record → ∃ diagnostic ∈
    round.reports.diagnostics, diagnostic.kind = .emit ∧ diagnostic.message = refusal.message
  /-- A unit in place of a struct is reported with the name of a spec that the struct declares. -/
  named : ∀ unit module ident, unit ∈ record.map Prod.fst → unit.placement = .entity module ident →
    ∃ owner ∈ entitiesOf items, owner.spec.module = module ∧ owner.spec.ident = ident ∧
      specName? (entitiesOf items) unit.placement = some owner.spec.name

theorem completed_ended {store : List GeneratedUnit} {state : State (σ × Record)} {start : σ}
    (side : StoreUnits settings items store)
    (offers : Offered (entitiesOf items) (found settings items)
      (entityUnits settings.runtime (entitiesOf items) ++ store) (unplanned settings items) state)
    (reached : state.sink.1 = offered sink start (state.sink.2.map Prod.fst)) :
    Completed settings items store sink start (ended items state.unrecorded) state.sink.2 := by
  refine ⟨rfl, offers.units, reached, offers.accepted, offers.diagnostics, ?_, ?_⟩
  · intro unit refusal member
    have reported : .refused refusal (specName? (entitiesOf items) unit.placement) ∈
        state.sink.2.filterMap (refused? (entitiesOf items)) :=
      List.mem_filterMap.mpr ⟨_, member, rfl⟩
    obtain ⟨diagnostic, kept, same⟩ := Diagnostic.exists_repeats_of_mem
      (List.mem_append_left _ (List.mem_append_right _ reported))
    obtain ⟨kind, message⟩ := Diagnostic.repeats_iff.mp same
    exact ⟨diagnostic, offers.diagnostics ▸ kept, kind.symm, message.symm⟩
  · intro unit module ident member placed
    rw [offers.units] at member
    rcases List.mem_append.mp member with member | member
    · obtain ⟨entity, inside, rfl⟩ := List.mem_map.mp member
      obtain ⟨rfl, rfl⟩ := Placement.entity.inj placed
      exact exists_specName? inside
    · rw [side.placement_of_mem member] at placed
      cases placed

theorem exists_completed {store : List GeneratedUnit} (units : StoreUnits settings items store)
    (done : events settings.runtime (entitiesOf items) (storeClash? settings items).isSome =
      .ok ((entityUnits settings.runtime (entitiesOf items) ++ store).map .offer ++
        (unplanned settings items).map .clash)) (sink : Sink σ) (start : σ) :
    ∃ (round : Round σ) (record : Record), run settings items sink start = .ok round ∧
      run settings items sink.recorded (start, []) =
        .ok { round with sink := (round.sink, record) } ∧
      Completed settings items store sink start round record := by
  obtain ⟨reports, diagnostics, eq⟩ := exists_run_eq done
  let before : State (σ × Record) := ⟨reports, 0, (start, [])⟩
  have nothing : Offered (entitiesOf items) (found settings items) [] [] before :=
    ⟨rfl, rfl, by simpa [before] using diagnostics⟩
  have offers := nothing.offerAll sink (entityUnits settings.runtime (entitiesOf items) ++ store)
  have offers := offers.clashAll sink (unplanned settings items)
  rw [← List.foldl_append] at offers
  refine ⟨_, _, ?_, eq sink.recorded (start, []), completed_ended units offers ?_⟩
  · rw [eq sink start]
    exact congrArg (fun state => Except.ok (ended items state))
      (unrecorded_foldl sink before _).symm
  · rw [offers.units]
    exact (congrArg State.sink (unrecorded_foldl sink before _)).trans (sink_foldl _ _)

theorem exists_completed_of_run {start : σ} {round : Round σ}
    (done : run settings items sink start = .ok round) :
    ∃ store record, StoreUnits settings items store ∧
      run settings items sink.recorded (start, []) =
        .ok { round with sink := (round.sink, record) } ∧
      Completed settings items store sink start round record := by
  obtain ⟨all, planned, -⟩ : ∃ all, events settings.runtime (entitiesOf items)
    (storeClash? settings items).isSome = .ok all ∧ _ := ok_of_bind done
  obtain ⟨store, units, rfl⟩ := events_eq planned
  obtain ⟨same, record, run, recorded, completed⟩ := exists_completed units planned sink start
  obtain rfl : same = round := Except.ok.inj (run.symm.trans done)
  exact ⟨store, record, units, recorded, completed⟩

/-- A round runs to its end whatever the sink answers. What it offers is settled before. -/
theorem run_completes {all : List Event}
    (done : events settings.runtime (entitiesOf items) (storeClash? settings items).isSome =
      .ok all) :
    ∃ store, StoreUnits settings items store ∧
      (HasStoreSide settings items → store.map GeneratedUnit.name = Naming.storeTypes) ∧
      (¬HasStoreSide settings items → store = []) ∧
      ∀ {σ : Type} (sink : Sink σ) (start : σ), ∃ (round : Round σ) (record : Record),
        run settings items sink start = .ok round ∧
        run settings items sink.recorded (start, []) =
          .ok { round with sink := (round.sink, record) } ∧
        Completed settings items store sink start round record := by
  obtain ⟨store, units, rfl⟩ := events_eq done
  exact ⟨store, units, units.names.1, units.names.2, exists_completed units done⟩

end Round

/-! Notes with tags. The tags stand in a module of their own, next to an enum that is marked as a
spec and a constant. -/
namespace Notes

def marked (name : String) : Attribute :=
  let args : Code := [.plain "name", .punct '=', .literal (Quoted.quote name)]
  { inner := false, path := ⟨false, [⟨"entity_spec", false⟩]⟩
    args := .list .round (Code.lexemes (args ++ [.closing .round]))
    code := .punct '#' :: Code.within .square (.plain "entity_spec" :: Code.within .round args)
    pos := .none, pathPos := .none }

def idMark : Attribute :=
  { inner := false, path := ⟨false, [⟨"entity_id", false⟩]⟩, args := .none
    code := .punct '#' :: Code.within .square [.plain "entity_id"], pos := .none, pathPos := .none }

def field (attrs : List Attribute) (name : String) (ty : Ty) : Field :=
  ⟨attrs, ⟨name, false⟩, .none, ty, .none⟩

def number : Ty := .path false [.bare ⟨"i64", false⟩]

def tags : Ty :=
  .path false [.mk ⟨"Vec", false⟩ (.angle false [.ty (.path false [.bare ⟨"Tag", false⟩])] false)]

def spec (name : String) (struct : Ident) (fields : List Field) : Item :=
  .struct { attrs := [marked name], vis := [.plain "pub"], name := struct, namePos := .none
            generics := none, bounded := false, fields := .named fields, code := [] }

def labels : ModuleHead :=
  { attrs := [], vis := [.plain "pub"], marker := [], name := ⟨"labels", false⟩, namePos := .none }

def limit : Item := .other (some (⟨"LIMIT", false⟩, .none)) [.plain "const", .plain "LIMIT"]

def kind : Item :=
  .enum { attrs := [marked "kind"], name := ⟨"Kind", false⟩, namePos := .none, pos := .none
          code := [] }

def items : List Item :=
  [spec "note" ⟨"NoteSpec", false⟩ [field [idMark] "id" number, field [] "tags" tags],
    .module labels (some [spec "tag" ⟨"TagSpec", false⟩ [field [idMark] "id" number], kind, limit])]

theorem hasStoreSide_items : Round.HasStoreSide {} items where
  inhabited := by
    have two : (Round.entitiesOf items).length = 2 := by decide +kernel
    rintro nothing
    rw [nothing] at two
    cases two
  free := by decide +kernel
  apart := by
    unfold Entity.Apart
    decide +kernel

/-- Two entities and eight types of the store module are offered, whatever becomes of them. -/
theorem run_completes_items : ∃ all store,
    Round.events (Settings.runtime {}) (Round.entitiesOf items)
      (Round.storeClash? {} items).isSome = .ok all ∧
    store.map GeneratedUnit.name = Naming.storeTypes ∧
    ∀ {σ : Type} (sink : Sink σ) (start : σ), ∃ (round : Round σ) (record : Record),
      Round.run {} items sink start = .ok round ∧
        Round.Completed {} items store sink start round record := by
  have planned : (Round.events (Settings.runtime {}) (Round.entitiesOf items)
      (Round.storeClash? {} items).isSome).toOption.isSome := by decide +kernel
  cases done : Round.events (Settings.runtime {}) (Round.entitiesOf items)
      (Round.storeClash? {} items).isSome with
  | error bad =>
    rw [done] at planned
    cases planned
  | ok all =>
    obtain ⟨store, -, names, -, completes⟩ := Round.run_completes done
    refine ⟨all, store, rfl, names hasStoreSide_items, fun sink start => ?_⟩
    obtain ⟨round, record, run, -, completed⟩ := completes sink start
    exact ⟨round, record, run, completed⟩

end Notes
end EntityGen
