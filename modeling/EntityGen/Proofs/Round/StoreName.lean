import EntityGen.Proofs.Round.Rejections
import EntityGen.Proofs.Round.Splicing

/-! The name of the store module. A round reports a clash if an item of the root module is spelled
like it. The store module comes in later, when specs have given way to their entities, and only if
there are any, so that the names that stand beside it then are not those that the report is about. -/
namespace EntityGen

/-- The name that an item declares in its module. -/
def Item.ownName? (item : Item) : Option Ident := item.declared?.map Prod.fst

namespace Round

open Diagnostic

variable {σ : Type} {settings : Settings} {items : List Item} {sink : Sink σ} {start : σ}
  {round : Round σ} {name : Ident} {item : Item}

theorem storeClash?_isSome_iff : (storeClash? settings items).isSome ↔
    ∃ item ∈ items, item.ownName? = some settings.store := by
  rw [storeClash?, Option.isSome_map, List.findSome?_isSome_iff]
  refine exists_congr fun item => and_congr_right fun _ => ?_
  rw [Item.ownName?]
  cases item.declared? <;> simp [Option.filter]

def ReportsStoreClash (diagnostics : List Diagnostic) : Prop :=
  ∃ part name pos, .clash (.storeModule part name pos) ∈ diagnostics

theorem mem_firsts_of_errors {errors others : List Diagnostic} {clash : Clash}
    (about : ∀ error ∈ errors, error.error?.isSome) :
    .clash clash ∈ firsts (errors ++ .clash clash :: others) := by
  have apart : errors.find? (Diagnostic.clash clash).repeats = none := by
    refine List.find?_eq_none.mpr fun diagnostic member same => ?_
    obtain ⟨error, isError⟩ := Option.isSome_iff_exists.mp (about diagnostic member)
    cases diagnostic with
    | spec error =>
      rw [repeats_comm, repeats_of_error?_eq_none rfl] at same
      cases same
    | clash => cases isError
    | refused => cases isError
  rw [mem_firsts_iff, List.find?_append, apart, Option.none_or, List.find?_cons, repeats_self]

theorem storeModule_notMem_unplanned {part : Part} {name : String} {pos : Pos} :
    .storeModule part name pos ∉ unplanned settings items := by
  intro member
  unfold unplanned at member
  split at member
  next => cases member
  next =>
    obtain ⟨_, -, same⟩ := List.mem_filterMap.mp member
    obtain ⟨_, -, same⟩ := Option.map_eq_some_iff.mp same
    cases same

/-- A clash is reported for an item that is spelled like the store module, whether it is a spec or
not, and whether anything is generated or not. -/
theorem reportsStoreClash_iff (run : Round.run settings items sink start = .ok round) :
    ReportsStoreClash round.reports.diagnostics ↔
      ∃ item ∈ items, item.ownName? = some settings.store := by
  obtain ⟨_, record, -, -, completed⟩ := exists_completed_of_run run
  rw [completed.diagnostics, ← storeClash?_isSome_iff]
  constructor
  · rintro ⟨part, name, pos, kept⟩
    have member := (firsts_sublist _).subset kept
    rw [found, List.mem_append, List.mem_append, List.mem_append] at member
    rcases member with ((error | here) | refusal) | unplanned
    · obtain ⟨_, -, same⟩ := List.mem_map.mp error
      cases same
    · obtain ⟨clash, found, -⟩ := List.mem_map.mp here
      exact Option.isSome_of_mem (Option.mem_toList.mp found)
    · obtain ⟨⟨_, answer⟩, -, same⟩ := List.mem_filterMap.mp refusal
      obtain ⟨_, -, same⟩ := Option.map_eq_some_iff.mp same
      cases same
    · obtain ⟨clash, found, same⟩ := List.mem_map.mp unplanned
      obtain rfl := Diagnostic.clash.inj same
      cases storeModule_notMem_unplanned found
  · intro clashes
    obtain ⟨clash, here⟩ := Option.isSome_iff_exists.mp clashes
    obtain ⟨⟨_, pos⟩, -, rfl⟩ := Option.map_eq_some_iff.mp here
    refine ⟨.store, settings.store.text, pos, ?_⟩
    rw [found, here, Option.toList_some, List.map_singleton, List.append_assoc, List.append_assoc]
    refine mem_firsts_of_errors fun error member => ?_
    obtain ⟨_, -, rfl⟩ := List.mem_map.mp member
    rfl

/-- What the `i`-th item of the root module declares when the entities have come in: a spec has
given way to its entity, or to nothing if it was rejected. -/
def nameAfter? (items : List Item) (i : Nat) (item : Item) : Option Ident :=
  if item.isMarked then
    ((homes items).find? fun home => home.1.place == [i]).map fun home => home.2.name
  else item.ownName?

/-- The names in the root module when the entities have come in. -/
def namesAfter (items : List Item) : List Ident := (items.mapIdx (nameAfter? items)).filterMap id

theorem find?_home {home : Site × Entity} {i : Nat} (member : home ∈ homes items)
    (place : home.1.place = [i]) :
    (homes items).find? (fun home => home.1.place == [i]) = some home := by
  obtain ⟨found, isFound⟩ := Option.isSome_iff_exists.mp
    (List.find?_isSome.mpr ⟨home, member, by simp [place]⟩ :
      ((homes items).find? fun home => home.1.place == [i]).isSome)
  have same : found.1.place = home.1.place := by simpa [place] using List.find?_some isFound
  rw [isFound, (fates items).eq_of_place (List.mem_of_find?_eq_some isFound) member same]

/-- The struct of an entity is marked. -/
theorem marked_of_home {home : Site × Entity} {i : Nat} (member : home ∈ homes items)
    (place : home.1.place = [i]) : ∃ bound : i < items.length, items[i].isMarked := by
  obtain ⟨listed, read⟩ := of_mem_homes member
  obtain ⟨decl, is, -, key⟩ := Site.exists_struct_of_spec? read
  have here := Site.mem_all_iff.mp listed
  rw [place, Item.at?] at here
  obtain ⟨item, found, same⟩ := Option.bind_eq_some_iff.mp here
  obtain ⟨-, rfl⟩ := Prod.mk.inj (Option.some.inj same)
  obtain ⟨bound, same⟩ := List.getElem?_eq_some_iff.mp found
  refine ⟨bound, ?_⟩
  rw [same, is, Item.isMarked]
  by_contra unmarked
  rw [Site.key?, is] at key
  simp [unmarked] at key

/-- A name stands for an item that stays, or for an entity whose struct stands in the root module. -/
theorem mem_namesAfter_iff : name ∈ namesAfter items ↔
    (∃ item ∈ items, item.isMarked = false ∧ item.ownName? = some name) ∨
      ∃ home ∈ homes items, (∃ i, home.1.place = [i]) ∧ home.2.name = name := by
  simp only [namesAfter, List.mem_filterMap, id, exists_eq_right, List.mem_mapIdx]
  constructor
  · rintro ⟨i, bound, here⟩
    unfold nameAfter? at here
    split at here
    next =>
      obtain ⟨home, found, named⟩ := Option.map_eq_some_iff.mp here
      refine .inr ⟨home, List.mem_of_find?_eq_some found, ⟨i, ?_⟩, named⟩
      simpa using List.find?_some found
    next kept => exact .inl ⟨items[i], List.getElem_mem bound, Bool.eq_false_iff.mpr kept, here⟩
  · rintro (⟨item, member, kept, named⟩ | ⟨home, member, ⟨i, place⟩, named⟩)
    · obtain ⟨i, bound, rfl⟩ := List.getElem_of_mem member
      exact ⟨i, bound, by rw [nameAfter?, kept, if_neg Bool.false_ne_true, named]⟩
    · obtain ⟨bound, marked⟩ := marked_of_home member place
      refine ⟨i, bound, ?_⟩
      rw [nameAfter?, if_pos marked, find?_home member place, Option.map_some, named]

/-- The store module is generated, and something has its name when it comes in. A mark for raw
spelling does not make another name. -/
def StoreClashes (settings : Settings) (items : List Item) : Prop :=
  entitiesOf items ≠ [] ∧ ∃ name ∈ namesAfter items, name.name = settings.store.name

instance : Decidable (StoreClashes settings items) :=
  inferInstanceAs (Decidable (entitiesOf items ≠ [] ∧
    ∃ name ∈ namesAfter items, name.name = settings.store.name))

/-- The report of a clash can be relied on. -/
structure StoreNameSeen (settings : Settings) (items : List Item) : Prop where
  /-- Where nothing is generated, no item has the name. -/
  idle : entitiesOf items = [] → ∀ item ∈ items, item.ownName? ≠ some settings.store
  /-- Where a spec has the name and gives way, something else has it then. -/
  given : entitiesOf items ≠ [] → ∀ item ∈ items, item.isMarked →
    item.ownName? = some settings.store → ∃ name ∈ namesAfter items, name.name = settings.store.name
  /-- Where an entity has the name, or an item that stays and is spelled in the other way, there is
  an item that is spelled so. -/
  arisen : entitiesOf items ≠ [] → ∀ name ∈ namesAfter items, name.name = settings.store.name →
    ∃ item ∈ items, item.ownName? = some settings.store

/-- What is reported is what clashes if and only if the name is seen at each of the items. -/
theorem store_clash_reported_iff (run : Round.run settings items sink start = .ok round) :
    Fates items (homes items) (rejections items) ∧
      (ReportsStoreClash round.reports.diagnostics ↔
        ∃ item ∈ items, item.ownName? = some settings.store) ∧
      ((ReportsStoreClash round.reports.diagnostics ↔ StoreClashes settings items) ↔
        StoreNameSeen settings items) := by
  refine ⟨fates items, reportsStoreClash_iff run, ?_⟩
  rw [reportsStoreClash_iff run]
  constructor
  · intro same
    refine ⟨fun nothing item member named => ?_, fun _ item member _ named => ?_, ?_⟩
    · exact (same.mp ⟨item, member, named⟩).1 nothing
    · exact (same.mp ⟨item, member, named⟩).2
    · exact fun inhabited name member named => same.mpr ⟨inhabited, name, member, named⟩
  · rintro ⟨idle, given, arisen⟩
    constructor
    · rintro ⟨item, member, named⟩
      have inhabited : entitiesOf items ≠ [] := fun nothing => idle nothing item member named
      refine ⟨inhabited, ?_⟩
      by_cases marked : item.isMarked
      · exact given inhabited item member marked named
      · have kept := Bool.eq_false_iff.mpr marked
        exact ⟨_, mem_namesAfter_iff.mpr (.inl ⟨item, member, kept, named⟩), rfl⟩
    · rintro ⟨inhabited, name, member, named⟩
      exact arisen inhabited name member named

end Round

/-! Rounds with and without a clash. -/
namespace Notes

def storeModule : Item := .module { labels with name := ⟨"store", false⟩ } (some [])

/-- The clash of the module with the store module of the notes is reported. -/
theorem store_clash_of_items : ∃ round,
    Round.run {} (items ++ [storeModule]) collect [] = .ok round ∧
      Round.StoreClashes {} (items ++ [storeModule]) ∧
      Round.ReportsStoreClash round.reports.diagnostics := by
  have finished : (Round.run {} (items ++ [storeModule]) collect []).toOption.isSome := by
    decide +kernel
  obtain ⟨round, found⟩ := Option.isSome_iff_exists.mp finished
  obtain ⟨-, -, exact⟩ := Round.store_clash_reported_iff (ok_of_toOption found)
  have clashes : Round.StoreClashes {} (items ++ [storeModule]) := by decide +kernel
  refine ⟨round, ok_of_toOption found, clashes, (exact.mpr ?_).mpr clashes⟩
  refine ⟨?_, ?_, ?_⟩ <;> decide +kernel

example : ¬Round.StoreClashes {} items := by decide +kernel

/-- The store module is called as the entity in the root module is. -/
def note : Settings := { store := ⟨"Note", false⟩ }

/-- A clash is reported where nothing is generated, and none where the store module has the name of
an entity. -/
theorem store_clash_unseen :
    (∃ round, Round.run {} [storeModule] collect [] = .ok round ∧
      Round.ReportsStoreClash round.reports.diagnostics ∧ ¬Round.StoreClashes {} [storeModule]) ∧
    ∃ round, Round.run note items collect [] = .ok round ∧
      ¬Round.ReportsStoreClash round.reports.diagnostics ∧ Round.StoreClashes note items := by
  have first : (Round.run {} [storeModule] collect []).toOption.isSome := by decide +kernel
  have second : (Round.run note items collect []).toOption.isSome := by decide +kernel
  obtain ⟨alarm, found⟩ := Option.isSome_iff_exists.mp first
  obtain ⟨silence, done⟩ := Option.isSome_iff_exists.mp second
  refine ⟨⟨alarm, ok_of_toOption found, ?_, by decide +kernel⟩,
    silence, ok_of_toOption done, ?_, by decide +kernel⟩
  · exact (Round.reportsStoreClash_iff (ok_of_toOption found)).mpr (by decide +kernel)
  · exact (Round.reportsStoreClash_iff (ok_of_toOption done)).not.mpr (by decide +kernel)

end Notes
end EntityGen
