import EntityGen.Proofs.Round.Files
import EntityGen.Round.Generation

/-! Files of their own for all types of a round. Two types share a file only if one of them has a
raw name and the other one the same name without the mark, or if one is an entity in a folder of the
name of the store module and the other a type of that module. -/
namespace EntityGen

def Entity.placement (entity : Entity) : Placement :=
  .entity entity.spec.module entity.spec.ident

/-- Without the mark of raw names the stem of a file is that of the methods. -/
theorem Naming.stem_of_fileStem {a b : Ident} (same : fileStem a = fileStem b)
    (alike : a.raw = b.raw) : stem a = stem b := by
  unfold stem Ident.text
  rw [← alike]
  split
  next => exact Text.snakeCase_raw same
  next => exact same

theorem Naming.nodup_storeStems : (storeTypes.map fileStem).Nodup := by decide +kernel

namespace Target

open Round

variable {target : Target} {settings : Settings} {items : List Item} {entities : List Entity}
  {a b : GeneratedUnit} {store units : List GeneratedUnit} {runtime : Path}

theorem place_inj : target.place a = target.place b ↔
    target.folders a.placement = target.folders b.placement ∧
      Naming.fileStem a.name = Naming.fileStem b.name := by
  unfold place fileName
  rw [← List.concat_eq_append, ← List.concat_eq_append, List.concat_inj, String.append_left_inj]

/-- No two types of a round have one file. -/
structure FilesApart (target : Target) (entities : List Entity) : Prop where
  /-- A raw name is without its mark no name of another entity in the same folder. -/
  raw : ∀ first ∈ entities, ∀ second ∈ entities, first.name.raw → ¬second.name.raw →
    Naming.fileStem first.name = Naming.fileStem second.name →
    target.folders first.placement ≠ target.folders second.placement
  /-- No entity in the folder of the store module has the name of a type there. -/
  store : ∀ entity ∈ entities, ∀ name ∈ Naming.storeTypes,
    Naming.fileStem entity.name = Naming.fileStem name →
    target.folders entity.placement ≠ target.folders .store

theorem nodup_paths_iff : (units.map target.path).Nodup ↔ (units.map target.place).Nodup := by
  simp only [List.Nodup, List.pairwise_map, ne_eq, path_inj]

theorem nodup_entityPlaces_iff (apart : Entity.Apart entities) :
    ((entityUnits runtime entities).map target.place).Nodup ↔
      ∀ first ∈ entities, ∀ second ∈ entities, first.name.raw → ¬second.name.raw →
        Naming.fileStem first.name = Naming.fileStem second.name →
        target.folders first.placement ≠ target.folders second.placement := by
  rw [entityUnits, List.map_map]
  constructor
  · intro distinct first here second there raw plain stem folders
    have same := List.inj_on_of_nodup_map distinct here there (place_inj.mpr ⟨folders, stem⟩)
    exact plain (same ▸ raw)
  · intro free
    refine List.pairwise_map.mpr ((List.pairwise_map.mp apart).imp_of_mem ?_)
    intro first second here there methods same
    obtain ⟨folders, stem⟩ := place_inj.mp same
    by_cases alike : first.name.raw = second.name.raw
    · have same : Naming.stem first.name = Naming.stem second.name :=
        Naming.stem_of_fileStem stem alike
      exact methods (by rw [Naming.getMethod, Naming.getMethod, same])
    · by_cases raw : first.name.raw
      · have plain : ¬second.name.raw := fun also => alike (raw.trans also.symm)
        exact free first here second there raw plain stem folders
      · have other : second.name.raw := by simpa [raw] using alike
        exact free second there first here other raw stem.symm folders.symm

theorem store_places_eq (side : StoreUnits settings items store)
    (names : store.map GeneratedUnit.name = Naming.storeTypes) :
    store.map target.place = Naming.storeTypes.map fun name =>
      target.folders .store ++ [Naming.fileStem name ++ ".rs"] := by
  rw [← names, List.map_map]
  refine List.map_congr_left fun unit member => ?_
  rw [place, side.placement_of_mem member]
  rfl

theorem nodup_storePlaces (side : StoreUnits settings items store)
    (names : store.map GeneratedUnit.name = Naming.storeTypes) :
    (store.map target.place).Nodup := by
  rw [store_places_eq side names]
  refine List.pairwise_map.mpr ((List.pairwise_map.mp Naming.nodup_storeStems).imp ?_)
  intro first second apart same
  rw [← List.concat_eq_append, ← List.concat_eq_append, List.concat_inj,
    String.append_left_inj] at same
  exact apart same.2

/-- The types of a round with a store side have files of their own if and only if nothing stands in
the way. -/
theorem nodup_places_iff (present : HasStoreSide settings items)
    (side : StoreUnits settings items store) :
    ((entityUnits settings.runtime (entitiesOf items) ++ store).map target.place).Nodup ↔
      target.FilesApart (entitiesOf items) := by
  have names := side.names.1 present
  rw [List.map_append, List.nodup_append]
  constructor
  · rintro ⟨entities, -, disjoint⟩
    refine ⟨(nodup_entityPlaces_iff present.apart).mp entities, ?_⟩
    intro entity member name known stem folders
    refine disjoint (target.place (entity.typeDecl settings.runtime).unit)
      (List.mem_map_of_mem (List.mem_map_of_mem member))
      (target.folders .store ++ [Naming.fileStem name ++ ".rs"]) ?_ ?_
    · rw [store_places_eq side names]
      exact List.mem_map_of_mem known
    · rw [← folders, ← stem]
      rfl
  · rintro ⟨raw, stores⟩
    refine ⟨(nodup_entityPlaces_iff present.apart).mpr raw, nodup_storePlaces side names, ?_⟩
    rw [store_places_eq side names]
    intro place atEntity other atStore same
    obtain ⟨unit, emitted, rfl⟩ := List.mem_map.mp atEntity
    obtain ⟨entity, member, rfl⟩ := List.mem_map.mp emitted
    obtain ⟨name, known, rfl⟩ := List.mem_map.mp atStore
    rw [place, fileName, ← List.concat_eq_append, ← List.concat_eq_append, List.concat_inj,
      String.append_left_inj] at same
    exact stores entity member name known same.2 same.1

end Target

namespace Round

variable {σ : Type} {settings : Settings} {items : List Item} {sink : Sink σ} {start : σ}
  {round : Round σ}

theorem nil_of_firsts {diagnostics : List Diagnostic}
    (silent : Diagnostic.firsts diagnostics = []) : diagnostics = [] := by
  cases diagnostics with
  | nil => rfl
  | cons => cases silent

/-- A round without reports generates everything there is to generate. -/
theorem hasStoreSide_of_silent (run : Round.run settings items sink start = .ok round)
    (silent : round.reports.diagnostics = []) (inhabited : entitiesOf items ≠ []) :
    HasStoreSide settings items := by
  obtain ⟨_, _, -, -, completed⟩ := exists_completed_of_run run
  have nothing := nil_of_firsts (completed.diagnostics.symm.trans silent)
  simp only [found, List.append_eq_nil_iff, List.map_eq_nil_iff] at nothing
  have free : storeClash? settings items = none := Option.toList_eq_nil_iff.mp nothing.1.1.2
  refine ⟨inhabited, free, ?_⟩
  have planned := nothing.2
  rw [unplanned, passesStore_eq_false_iff.mpr ⟨inhabited, free⟩,
    if_neg Bool.false_ne_true] at planned
  exact (Part.accessorClash?_eq_none_iff .store).mp
    (List.filterMap_eq_nil_iff.mp planned .store (by decide))

/-- A round without reports has no unit refused. -/
theorem exists_offered_of_silent (run : Round.run settings items sink start = .ok round)
    (silent : round.reports.diagnostics = []) :
    ∃ store record, StoreUnits settings items store ∧
      Round.run settings items sink.recorded (start, []) =
        .ok { round with sink := (round.sink, record) } ∧
      offered sink.recorded (start, []) (entityUnits settings.runtime (entitiesOf items) ++ store) =
        (round.sink, record) ∧
      ∀ offer ∈ record, offer.2 = none := by
  obtain ⟨_, record, -, recorded, completed⟩ := exists_completed_of_run run
  -- The recorded round is a round as well, and the record is a part of what its sink becomes.
  obtain ⟨store, _, side, -, again⟩ := exists_completed_of_run recorded
  refine ⟨store, record, side, recorded, ?_, ?_⟩
  · rw [← again.units]
    exact again.sink.symm
  · rintro ⟨unit, answer⟩ member
    cases answer with
    | none => rfl
    | some refusal =>
      obtain ⟨diagnostic, reported, -⟩ := completed.refusals unit refusal member
      rw [silent] at reported
      cases reported

end Round

namespace Target

variable {target : Target} {settings : Settings} {items : List Item} {start : Written}
  {round : Round Written}

/-- What a round without reports has written. -/
theorem exists_leaves_of_silent (run : Round.run settings items target.sink start = .ok round)
    (silent : round.reports.diagnostics = []) :
    ∃ units : List GeneratedUnit,
      Round.run settings items target.sink.recorded (start, []) =
        .ok { round with sink := (round.sink, units.map fun unit => (unit, none)) } ∧
      target.Leaves units start round.sink ∧
      ((units.map target.place).Nodup ↔ target.FilesApart round.entities) := by
  obtain ⟨store, record, side, recorded, offered, accepted⟩ :=
    Round.exists_offered_of_silent run silent
  obtain ⟨rfl, leaves⟩ := leaves_offered _ offered accepted
  obtain ⟨_, _, -, -, completed⟩ := Round.exists_completed_of_run run
  refine ⟨_, recorded, leaves, ?_⟩
  rw [completed.entities]
  by_cases inhabited : Round.entitiesOf items = []
  · have nothing := side.names.2 fun present => present.inhabited inhabited
    rw [inhabited, nothing]
    exact iff_of_true List.nodup_nil ⟨nofun, nofun⟩
  · exact nodup_places_iff (Round.hasStoreSide_of_silent run silent inhabited) side

/-- Files with places of their own are all there. -/
theorem Leaves.all {units : List GeneratedUnit} {written : Written}
    (leaves : target.Leaves units start written) (apart : (units.map target.place).Nodup)
    {unit : GeneratedUnit} (member : unit ∈ units) :
    ∃ content, target.render unit = .ok content ∧
      written.folder.find? (target.place unit) = some (.file content) := by
  obtain ⟨before, after, rfl⟩ := List.append_of_mem member
  refine leaves.files before unit after rfl fun later inside same => ?_
  rw [List.map_append, List.map_cons] at apart
  have first := (List.nodup_cons.mp (List.nodup_append.mp apart).2.1).1
  exact first (same ▸ List.mem_map_of_mem inside)

end Target

/-- The files of a round without reports have paths of their own if and only if the names of its
entities leave them apart, and then none of them is written over. -/
theorem generated_files_apart_iff {settings : Settings} {path root : String}
    {bytes : Option ByteArray} {folder : Folder} {round : Round Written}
    (done : generateFiles settings path root bytes folder = .ok round)
    (silent : round.reports.diagnostics = []) :
    let target := Target.ofSettings root settings
    ∃ (text : String) (items : List Item) (units : List GeneratedUnit),
      sourceText path bytes = .ok text ∧ Item.listOfText? text = some items ∧
      Round.run settings items target.sink.recorded (⟨folder, []⟩, []) =
        .ok { round with sink := (round.sink, units.map fun unit => (unit, none)) } ∧
      round.sink.paths = units.map target.path ∧
      (round.sink.paths.Nodup ↔ target.FilesApart round.entities) ∧
      (target.FilesApart round.entities → ∀ unit ∈ units, ∃ content,
        target.render unit = .ok content ∧
          round.sink.folder.find? (target.place unit) = some (.file content)) := by
  intro target
  obtain ⟨text, read, done⟩ := ok_of_bind done
  cases parsed : Item.listOfText? text with
  | none =>
    rw [parsed] at done
    cases done
  | some items =>
    rw [parsed] at done
    obtain ⟨units, recorded, leaves, apart⟩ :=
      Target.exists_leaves_of_silent (ok_of_mapError done) silent
    have paths : round.sink.paths = units.map target.path := leaves.paths
    refine ⟨text, items, units, read, parsed, recorded, paths, ?_, fun free unit member => ?_⟩
    · rw [paths, Target.nodup_paths_iff, apart]
    · exact leaves.all (apart.mpr free) member

/-! A module of one entity, with files that are not laid out. -/
namespace OneEntity

def source (module name : String) : String :=
  "mod " ++ module ++ "\x7b#[entity_spec(name=\"" ++ name ++
    "\")]struct S\x7b#[entity_id]a:u8\x7d\x7d"

def generated (module name : String) : Except SourceError (Round Written) :=
  generateFiles { format := false } "source" "out" (some (source module name).toUTF8) {}

/-- Without reports nine files are written, and the last of them is there like the first. -/
theorem nine_files : ∃ round, generated "m" "n" = .ok round ∧ round.sink.paths.Nodup ∧
    ∃ units : List GeneratedUnit, units.length = 9 ∧ ∀ unit ∈ units, ∃ content,
      round.sink.folder.find? ((Target.ofSettings "out" { format := false }).place unit) =
        some (.file content) := by
  have known : (generated "m" "n").toOption.map (fun round =>
      (round.reports.diagnostics, round.sink.paths.length, decide round.sink.paths.Nodup)) =
        some ([], 9, true) := by decide +kernel
  obtain ⟨round, found, facts⟩ := Option.map_eq_some_iff.mp known
  obtain ⟨silent, nine, distinct⟩ : round.reports.diagnostics = [] ∧
      round.sink.paths.length = 9 ∧ round.sink.paths.Nodup := by simpa using facts
  have done := ok_of_toOption found
  obtain ⟨_, _, units, -, -, -, paths, apart, all⟩ := generated_files_apart_iff done silent
  refine ⟨round, done, distinct, units, ?_, fun unit member => ?_⟩
  · rw [← nine, paths, List.length_map]
  · obtain ⟨content, -, file⟩ := all (apart.mp distinct) unit member
    exact ⟨content, file⟩

/-- The folder of the module is that of the store module, which has a type of the name. -/
theorem written_over : (generated "Store" "entityRef").toOption.map (fun round =>
    (round.reports.diagnostics, round.sink.paths.length,
      round.sink.paths.count "out/store/entity_ref.rs")) = some ([], 9, 2) := by
  decide +kernel

end OneEntity
end EntityGen
