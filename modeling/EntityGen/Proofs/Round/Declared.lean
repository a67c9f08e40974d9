import EntityGen.Proofs.Resolve.Partition
import EntityGen.Proofs.Round.Offers
import EntityGen.Proofs.Spec.Sites
import Mathlib.Data.List.Nodup

/-! What becomes of the declarations of a round. Each that is marked as a spec is the home of an
entity, or it is rejected, by intake or by resolution. -/
namespace EntityGen.Round

variable {items : List Item} {site : Site} {entity : Entity} {error : SpecError}

/-- The specs of a round, each with the site that it is read at. -/
def declared (items : List Item) : List (Site × Spec) :=
  (Site.all items).filterMap fun site => site.spec?.map fun spec => (site, spec)

def judged (items : List Item) : List ((Site × Spec) × Option SpecError) :=
  (declared items).zip (Resolution.verdicts (Intake.ofItems [] items).specs)

def homes (items : List Item) : List (Site × Entity) :=
  let table := (Resolution.ofSpecs (Intake.ofItems [] items).specs).table
  ((judged items).filter fun judged => judged.2.isNone).map fun ((site, spec), _) =>
    (site, Resolution.entity table spec)

def unreadable (items : List Item) : List (Site × SpecError) :=
  (Site.all items).filterMap fun site => site.error?.map fun error => (site, error)

def unaccepted (items : List Item) : List (Site × SpecError) :=
  (judged items).filterMap fun ((site, _), verdict) => verdict.map fun error => (site, error)

def rejections (items : List Item) : List (Site × SpecError) := unreadable items ++ unaccepted items

theorem map_snd_declared (items : List Item) :
    (declared items).map Prod.snd = (Intake.ofItems [] items).specs := by
  rw [← Site.gather_all, declared, List.map_filterMap]
  simp [Site.gather, Function.comp_def]

theorem map_fst_declared (items : List Item) :
    (declared items).map Prod.fst = (Site.all items).filter fun site => site.spec?.isSome := by
  rw [declared, List.map_filterMap, ← List.filterMap_eq_filter]
  refine List.filterMap_congr fun site _ => ?_
  cases read : site.spec? <;> simp [read, Option.guard]

theorem length_judged (items : List Item) : (declared items).length =
    (Resolution.verdicts (Intake.ofItems [] items).specs).length := by
  rw [← map_snd_declared, Resolution.verdicts, List.length_mapIdx, List.length_map]

theorem map_fst_judged (items : List Item) : (judged items).map Prod.fst = declared items :=
  List.map_fst_zip (Nat.le_of_eq (length_judged items))

theorem map_snd_judged (items : List Item) : (judged items).map Prod.snd =
    Resolution.verdicts (Intake.ofItems [] items).specs :=
  List.map_snd_zip (Nat.le_of_eq (length_judged items).symm)

theorem map_judged (items : List Item) : (judged items).map (fun judged => (judged.1.2, judged.2)) =
    (Intake.ofItems [] items).specs.zip (Resolution.verdicts (Intake.ofItems [] items).specs) := by
  rw [judged, ← map_snd_declared, List.zip_map_left]
  rfl

/-- The entities of a round are those that have a home. -/
theorem map_snd_homes (items : List Item) : (homes items).map Prod.snd = entitiesOf items := by
  let specs := (Intake.ofItems [] items).specs
  have accepted : (Resolution.sort specs).accepted =
      ((judged items).filter fun judged => judged.2.isNone).map fun judged => judged.1.2 := by
    rw [← Resolution.before_length, Resolution.accepted_before specs specs.length (Nat.le_refl _),
      List.take_of_length_le (by simp [Resolution.verdicts]), ← map_judged, List.filter_map,
      List.map_map]
    rfl
  rw [homes, entitiesOf, Resolution.ofSpecs, accepted, List.map_map, List.map_map]
  rfl

theorem map_snd_unaccepted (items : List Item) : (unaccepted items).map Prod.snd =
    (Resolution.ofSpecs (Intake.ofItems [] items).specs).errors := by
  let specs := (Intake.ofItems [] items).specs
  have rejected : (Resolution.sort specs).errors = (Resolution.verdicts specs).filterMap id := by
    rw [← Resolution.before_length, Resolution.errors_before specs specs.length (Nat.le_refl _),
      List.take_of_length_le (by simp [Resolution.verdicts])]
  rw [Resolution.ofSpecs, rejected, ← map_snd_judged, unaccepted, List.map_filterMap,
    List.filterMap_map]
  simp [Function.comp_def]

theorem map_snd_rejections (items : List Item) :
    let intake := Intake.ofItems [] items
    (rejections items).map Prod.snd =
      intake.errors ++ (Resolution.ofSpecs intake.specs).errors := by
  have read : (unreadable items).map Prod.snd = (Intake.ofItems [] items).errors := by
    rw [← Site.gather_all, unreadable, List.map_filterMap]
    simp [Site.gather, Function.comp_def]
  rw [rejections, List.map_append, read, map_snd_unaccepted]

theorem map_fst_unreadable (items : List Item) :
    (unreadable items).map Prod.fst = (Site.all items).filter fun site => site.error?.isSome := by
  rw [unreadable, List.map_filterMap, ← List.filterMap_eq_filter]
  refine List.filterMap_congr fun site _ => ?_
  cases read : site.error? <;> simp [read, Option.guard]

theorem map_fst_homes (items : List Item) : (homes items).map Prod.fst =
    ((judged items).filter fun judged => judged.2.isNone).map fun judged => judged.1.1 := by
  rw [homes, List.map_map]
  rfl

/-- A spec is accepted or not. -/
theorem perm_judged (items : List Item) :
    ((homes items).map Prod.fst ++ (unaccepted items).map Prod.fst).Perm
      ((declared items).map Prod.fst) := by
  have rejected : (unaccepted items).map Prod.fst =
      ((judged items).filter fun judged => !judged.2.isNone).map fun judged => judged.1.1 := by
    rw [unaccepted, List.map_filterMap, ← List.filterMap_eq_filter, List.map_filterMap]
    refine List.filterMap_congr fun ((site, spec), verdict) _ => ?_
    cases verdict <;> simp [Option.guard]
  rw [rejected, map_fst_homes, ← List.map_append, ← map_fst_judged, List.map_map]
  exact (List.filter_append_perm _ _).map _

/-- Each declaration that is marked has one fate. -/
theorem perm_fates (items : List Item) :
    ((homes items).map Prod.fst ++ (rejections items).map Prod.fst).Perm
      ((Site.all items).filter fun site => site.outcome?.isSome) := by
  let marked := (Site.all items).filter fun site => site.outcome?.isSome
  have specs : marked.filter (fun site => site.spec?.isSome) = (declared items).map Prod.fst := by
    rw [map_fst_declared, List.filter_filter]
    refine List.filter_congr fun site _ => ?_
    cases read : site.outcome? <;> simp [Site.spec?, read]
  have errors : marked.filter (fun site => !site.spec?.isSome) =
      (unreadable items).map Prod.fst := by
    rw [map_fst_unreadable, List.filter_filter]
    refine List.filter_congr fun site _ => ?_
    rcases read : site.outcome? with _ | _ | _ <;>
      simp [Site.spec?, Site.error?, read, Except.toOption]
  have both := List.filter_append_perm (fun site : Site => site.spec?.isSome) marked
  rw [specs, errors] at both
  rw [rejections, List.map_append]
  refine (List.perm_append_comm.append_left _).trans ?_
  rw [← List.append_assoc]
  exact ((perm_judged items).append_right _).trans both

/-- A home is the site of a spec that is read there. -/
theorem of_mem_homes (member : (site, entity) ∈ homes items) :
    site ∈ Site.all items ∧ site.spec? = some entity.spec := by
  obtain ⟨⟨⟨home, spec⟩, verdict⟩, accepted, same⟩ := List.mem_map.mp member
  obtain ⟨rfl, rfl⟩ := Prod.mk.inj same
  have inside : (home, spec) ∈ (judged items).map Prod.fst :=
    List.mem_map_of_mem (List.mem_filter.mp accepted).1
  rw [map_fst_judged] at inside
  obtain ⟨_, listed, found⟩ := List.mem_filterMap.mp inside
  obtain ⟨_, read, same⟩ := Option.map_eq_some_iff.mp found
  obtain ⟨rfl, rfl⟩ := Prod.mk.inj same
  exact ⟨listed, read⟩

abbrev tableOf (items : List Item) : EntityTable :=
  (Resolution.ofSpecs (Intake.ofItems [] items).specs).table

theorem eq_entity_of_mem_homes (member : (site, entity) ∈ homes items) :
    entity = Resolution.entity (tableOf items) entity.spec := by
  obtain ⟨judged, -, same⟩ := List.mem_map.mp member
  obtain ⟨-, rfl⟩ := Prod.mk.inj same
  rfl

/-- Homes are listed in the order of their places. -/
theorem ordered_homes (items : List Item) : Site.Ordered ((homes items).map Prod.fst) := by
  have within : ((homes items).map Prod.fst).Sublist (Site.all items) := by
    rw [map_fst_homes]
    refine (List.filter_sublist.map _).trans ?_
    rw [← Function.comp_def Prod.fst Prod.fst, ← List.map_map, map_fst_judged, map_fst_declared]
    exact List.filter_sublist
  exact (Site.ordered_all items).sublist within

/-- What becomes of the declarations that are marked as specs, each where it stands. -/
structure Fates (items : List Item) (homes : List (Site × Entity))
    (rejections : List (Site × SpecError)) : Prop where
  /-- The entities of a round are those that have a home. -/
  entities : homes.map Prod.snd = entitiesOf items
  errors : rejections.map Prod.snd = (Intake.ofItems [] items).errors ++
    (Resolution.ofSpecs (Intake.ofItems [] items).specs).errors
  /-- A home is a struct that the spec of its entity is read from. -/
  read : ∀ home entity, (home, entity) ∈ homes → ∃ decl,
    Item.at? [] items home.place = some (entity.type.module, .struct decl) ∧
      Spec.ofStruct decl entity.type.module = .ok entity.spec ∧
      home.key? = some (entity.spec.module, entity.spec.ident)
  /-- The path to an entity from the store module leads through the modules around its home. -/
  reached : ∀ home entity, (home, entity) ∈ homes → entity.type.fromStore =
    (home.module ++ [entity.name]).foldl Code.step [.plain "super"]
  complete : (homes.map Prod.fst ++ rejections.map Prod.fst).Perm
    ((Site.all items).filter fun site => site.outcome?.isSome)
  distinct : ((homes.map Prod.fst ++ rejections.map Prod.fst).map Site.place).Nodup

section Fates

variable {homes : List (Site × Entity)} {rejections : List (Site × SpecError)}
  {first second : Site × Entity} {rejection : Site × SpecError}

theorem Fates.eq_of_place (fates : Fates items homes rejections) (here : first ∈ homes)
    (there : second ∈ homes) (same : first.1.place = second.1.place) : first = second := by
  have distinct := fates.distinct
  rw [List.map_append, List.map_map, List.nodup_append] at distinct
  exact List.inj_on_of_nodup_map distinct.1 here there same

theorem Fates.place_ne (fates : Fates items homes rejections) (here : first ∈ homes)
    (there : rejection ∈ rejections) : first.1.place ≠ rejection.1.place := by
  have distinct := fates.distinct
  rw [List.map_append, List.map_map, List.map_map, List.nodup_append] at distinct
  exact distinct.2.2 _ (List.mem_map_of_mem here) _ (List.mem_map_of_mem there)

/-- Of the places with a mark those are homes where nothing is rejected. -/
theorem Fates.mem_places_iff (fates : Fates items homes rejections) {place : Place} :
    place ∈ homes.map (fun home => home.1.place) ↔
      place ∈ ((Site.all items).filter fun site => site.outcome?.isSome).map Site.place ∧
        place ∉ rejections.map fun rejection => rejection.1.place := by
  have complete : place ∈ _ ↔ place ∈ _ := (fates.complete.map Site.place).mem_iff
  have distinct := fates.distinct
  rw [List.map_append, List.map_map, List.map_map] at complete distinct
  rw [← complete, List.mem_append]
  have apart := (List.nodup_append.mp distinct).2.2
  constructor
  · exact fun home => ⟨.inl home, fun rejected => apart _ home _ rejected rfl⟩
  · rintro ⟨home | rejected, none⟩
    · exact home
    · exact absurd rejected none

theorem Fates.of_mem_rejections (fates : Fates items homes rejections)
    (there : rejection ∈ rejections) :
    rejection.1 ∈ Site.all items ∧ rejection.1.outcome?.isSome := by
  refine List.mem_filter.mp (fates.complete.mem_iff.mp ?_)
  exact List.mem_append_right _ (List.mem_map_of_mem there)

end Fates

theorem fates (items : List Item) : Fates items (homes items) (rejections items) := by
  have read : ∀ home entity, (home, entity) ∈ homes items → home.module = entity.type.module ∧
      ∃ decl, Item.at? [] items home.place = some (entity.type.module, .struct decl) ∧
        Spec.ofStruct decl entity.type.module = .ok entity.spec ∧
        home.key? = some (entity.spec.module, entity.spec.ident) := by
    intro home entity member
    obtain ⟨listed, found⟩ := of_mem_homes member
    obtain ⟨decl, is, accepted, key⟩ := Site.exists_struct_of_spec? found
    have around : home.module = entity.type.module := (Spec.of_ofStruct accepted).2.1.symm
    rw [← around]
    exact ⟨rfl, decl, is ▸ Site.mem_all_iff.mp listed, accepted, key⟩
  exact {
    entities := map_snd_homes items
    errors := map_snd_rejections items
    read := fun home entity member => (read home entity member).2
    reached := fun home entity member => by
      rw [(read home entity member).1]
      rfl
    complete := perm_fates items
    distinct := ((perm_fates items).map _).nodup_iff.mpr
      ((Site.ordered_all items).nodup_place.sublist (List.filter_sublist.map _)) }

end EntityGen.Round
