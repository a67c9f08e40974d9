import EntityGen.Proofs.Round.Declared
import EntityGen.Proofs.Round.Replacing
import Mathlib.Data.List.Induction

/-! Where the entities of a round come in. The first of the structs of one name in modules of one
path is given the entity that was accepted last for any of them, so that each entity comes in for
its own struct if no struct of that name stands before. -/
namespace EntityGen

namespace Buffer

theorem waitsFor_add (buffer : Buffer) (unit : GeneratedUnit) (key : StructKey) :
    (buffer.add unit).waitsFor key =
      if unit.placement = .entity key.1 key.2 then some unit.code else buffer.waitsFor key := by
  unfold add waitsFor
  split
  next module spec placed =>
    rw [find?_filter_ne_append _ ((module, spec), unit.code), placed]
    by_cases same : key = (module, spec)
    · simp [same]
    · have apart : ¬((module, spec) : StructKey) = key := Ne.symm same
      simp [same, Prod.ext_iff.not.mp apart]
  next placed => simp [placed]

/-- Of the units for a struct the last one waits. -/
theorem waitsFor_offered (units : List GeneratedUnit) (key : StructKey) :
    (Round.offered sink {} units).waitsFor key =
      (units.reverse.find? fun unit => unit.placement == .entity key.1 key.2).map
        GeneratedUnit.code := by
  induction units using List.reverseRecOn with
  | nil => rfl
  | append_singleton units last ih =>
    have added : Round.offered sink {} (units ++ [last]) =
        (Round.offered sink {} units).add last := by
      simp [Round.offered, sink]
    rw [added, waitsFor_add, ih, List.reverse_concat, List.find?_cons]
    by_cases here : last.placement = .entity key.1 key.2
    · simp [here]
    · rw [if_neg here, beq_false_of_ne here]

end Buffer

namespace Expansion

open Round

variable {settings : Settings} {head : ModuleHead} {items : List Item} {expansion : Expansion}
  {round : Round Buffer} {key : StructKey} {changes : Changes} {buffer : Buffer}
  {sites : List Site} {site other : Site} {code : Code}

theorem waitsFor_run (run : Round.run settings items Buffer.sink {} = .ok round) (key : StructKey) :
    ∃ store, StoreUnits settings items store ∧ round.sink.waitsFor key =
      ((entityUnits settings.runtime (entitiesOf items) ++ store).reverse.find? fun unit =>
        unit.placement == .entity key.1 key.2).map GeneratedUnit.code := by
  obtain ⟨store, record, side, -, completed⟩ := exists_completed_of_run run
  refine ⟨store, side, ?_⟩
  rw [completed.sink, completed.units, Buffer.waitsFor_offered]

/-- What waits for a struct after a round was generated for an entity that it declares. -/
theorem exists_entity_of_waitsFor (run : Round.run settings items Buffer.sink {} = .ok round)
    (waits : round.sink.waitsFor key = some code) :
    ∃ entity ∈ entitiesOf items, (entity.spec.module, entity.spec.ident) = key ∧
      (entity.typeDecl settings.runtime).unit.code = code := by
  obtain ⟨store, side, all⟩ := waitsFor_run run key
  obtain ⟨unit, found, rfl⟩ := Option.map_eq_some_iff.mp (all.symm.trans waits)
  have placed : unit.placement = .entity key.1 key.2 := by simpa using List.find?_some found
  have member := List.mem_reverse.mp (List.mem_of_find?_eq_some found)
  rcases List.mem_append.mp member with entityUnit | storeUnit
  · obtain ⟨entity, accepted, rfl⟩ := List.mem_map.mp entityUnit
    obtain ⟨module, ident⟩ := Placement.entity.inj placed
    exact ⟨entity, accepted, Prod.ext module ident, rfl⟩
  · rw [side.placement_of_mem storeUnit] at placed
    cases placed

/-- Something waits for the struct of each entity. -/
theorem waitsFor_isSome (run : Round.run settings items Buffer.sink {} = .ok round)
    {entity : Entity} (member : entity ∈ entitiesOf items) :
    (round.sink.waitsFor (entity.spec.module, entity.spec.ident)).isSome := by
  obtain ⟨store, -, all⟩ := waitsFor_run run (entity.spec.module, entity.spec.ident)
  rw [all, Option.isSome_map, List.find?_isSome]
  refine ⟨(entity.typeDecl settings.runtime).unit, ?_, beq_self_eq_true _⟩
  exact List.mem_reverse.mpr (List.mem_append_left _ (List.mem_map_of_mem member))

section Follows

variable (follows : Follows changes buffer sites)

include follows

theorem Follows.of_keyless (member : site ∈ sites) (read : site.outcome?.isSome)
    (keyless : site.key? = none) : changes site.place = some none := by
  obtain ⟨before, after, all⟩ := List.append_of_mem member
  obtain ⟨outcome, found⟩ := Option.isSome_iff_exists.mp read
  rw [follows before site after all, found, Buffer.given, keyless]
  rfl

variable (ordered : Site.Ordered sites) (member : site ∈ sites)

include ordered member

/-- What comes in for a marked struct, by the sites before it. -/
theorem Follows.of_key (found : site.key? = some key) :
    ∃ before : List Site, (∀ other ∈ sites, other.place < site.place → other ∈ before) ∧
      (∀ other ∈ before, other ∈ sites ∧ other.place < site.place) ∧
      changes site.place =
        some (if key ∈ before.filterMap Site.key? then none else buffer.waitsFor key) := by
  obtain ⟨before, after, rfl⟩ := List.append_of_mem member
  obtain ⟨-, later, apart⟩ := List.pairwise_append.mp ordered
  refine ⟨before, ?_, ?_, ?_⟩
  · intro other inside less
    rcases List.mem_append.mp inside with first | second
    · exact first
    · rcases List.mem_cons.mp second with rfl | third
      · exact absurd less (List.lt_irrefl _)
      · exact absurd less (List.lt_asymm ((List.pairwise_cons.mp later).1 other third))
  · exact fun other first => ⟨List.mem_append_left _ first, apart other first site (.head _)⟩
  · rw [follows before site after rfl, Buffer.given, found]
    obtain ⟨outcome, read⟩ := Option.isSome_iff_exists.mp (Site.outcome?_isSome found)
    rw [read]
    rfl

/-- Nothing comes in for a struct that has the name of one before it. -/
theorem Follows.of_later (earlier : other ∈ sites) (before : other.place < site.place)
    (found : site.key? = some key) (same : other.key? = some key) :
    changes site.place = some none := by
  obtain ⟨passed, complete, -, change⟩ := follows.of_key ordered member found
  rw [change, if_pos (List.mem_filterMap.mpr ⟨other, complete other earlier before, same⟩)]

/-- What waits comes in for the first struct of a name. -/
theorem Follows.of_first (found : site.key? = some key)
    (first : ∀ other ∈ sites, other.key? = some key → ¬other.place < site.place) :
    changes site.place = some (buffer.waitsFor key) := by
  obtain ⟨passed, -, sound, change⟩ := follows.of_key ordered member found
  rw [change, if_neg]
  intro taken
  obtain ⟨other, before, same⟩ := List.mem_filterMap.mp taken
  exact first other (sound other before).1 same (sound other before).2

end Follows

/-- Every entity comes in once, for the struct that its spec is read from. Nothing comes in for a
declaration that is rejected, and whatever else there is stays. -/
structure InPlace (runtime : Path) (items : List Item) (changes : Changes) : Prop where
  accepted : ∀ home entity, (home, entity) ∈ homes items →
    changes home.place = some (some (entity.typeDecl runtime).unit.code)
  rejected : ∀ site error, (site, error) ∈ rejections items → changes site.place = some none
  kept : ∀ site ∈ Site.all items, site.outcome? = none → changes site.place = none

/-- No struct that is accepted has another one of its name before it, in a module of its path. -/
def LeadsItsName (items : List Item) : Prop :=
  ∀ accepted ∈ homes items, ∀ site ∈ Site.all items,
    site.key? = accepted.1.key? → ¬site.place < accepted.1.place

instance : Decidable (LeadsItsName items) :=
  inferInstanceAs (Decidable (∀ accepted ∈ homes items, ∀ site ∈ Site.all items,
    site.key? = accepted.1.key? → ¬site.place < accepted.1.place))

section Homes

variable {home : Site} {entity : Entity}

theorem mem_all_of_home (member : (home, entity) ∈ homes items) : home ∈ Site.all items :=
  (of_mem_homes member).1

theorem key?_of_home (member : (home, entity) ∈ homes items) :
    home.key? = some (entity.spec.module, entity.spec.ident) := by
  obtain ⟨_, -, -, key⟩ := (fates items).read home entity member
  exact key

/-- What waits for the struct of an entity is the entity itself, if no other has its name. -/
theorem waitsFor_of_leads (run : Round.run settings items Buffer.sink {} = .ok round)
    (leads : LeadsItsName items) (member : (home, entity) ∈ homes items) :
    round.sink.waitsFor (entity.spec.module, entity.spec.ident) =
      some (entity.typeDecl settings.runtime).unit.code := by
  have accepted : entity ∈ entitiesOf items :=
    (fates items).entities ▸ List.mem_map_of_mem member
  obtain ⟨code, waits⟩ := Option.isSome_iff_exists.mp (waitsFor_isSome run accepted)
  obtain ⟨last, lastAccepted, same, rfl⟩ := exists_entity_of_waitsFor run waits
  rw [← (fates items).entities] at lastAccepted
  obtain ⟨⟨lastHome, _⟩, lastMember, rfl⟩ := List.mem_map.mp lastAccepted
  have alike : lastHome.key? = home.key? := by
    rw [key?_of_home lastMember, key?_of_home member, same]
  -- Neither of the two homes stands before the other, so they are one.
  have notBefore := leads _ member lastHome (mem_all_of_home lastMember) alike
  have notAfter := leads _ lastMember home (mem_all_of_home member) alike.symm
  have place : lastHome.place = home.place :=
    List.le_antisymm (List.not_lt.mp notAfter) (List.not_lt.mp notBefore)
  obtain ⟨-, rfl⟩ := Prod.mk.inj ((fates items).eq_of_place lastMember member place)
  exact waits

end Homes

/-- Nothing waits for the struct of a rejected spec, if none is accepted behind it. -/
theorem waitsFor_of_rejected (run : Round.run settings items Buffer.sink {} = .ok round)
    (leads : LeadsItsName items) {rejection : Site × SpecError}
    (member : rejection ∈ rejections items) (found : rejection.1.key? = some key)
    (first : ∀ other ∈ Site.all items, other.key? = some key →
      ¬other.place < rejection.1.place) : round.sink.waitsFor key = none := by
  refine Option.eq_none_iff_forall_ne_some.mpr fun code waits => ?_
  obtain ⟨entity, accepted, same, -⟩ := exists_entity_of_waitsFor run waits
  rw [← (fates items).entities] at accepted
  obtain ⟨⟨home, _⟩, atHome, rfl⟩ := List.mem_map.mp accepted
  have alike : home.key? = some key := by rw [key?_of_home atHome, same]
  have inside := ((fates items).of_mem_rejections member).1
  have notAfter := leads _ atHome rejection.1 inside (found.trans alike.symm)
  have notBefore := first home (mem_all_of_home atHome) alike
  exact (fates items).place_ne atHome member
    (List.le_antisymm (List.not_lt.mp notAfter) (List.not_lt.mp notBefore))

theorem inPlace_of_leads (run : Round.run settings items Buffer.sink {} = .ok round)
    (follows : Follows changes round.sink (Site.all items)) (leads : LeadsItsName items) :
    InPlace settings.runtime items changes := by
  have ordered := Site.ordered_all items
  refine ⟨?_, ?_, ?_⟩
  · intro home entity member
    rw [follows.of_first ordered (mem_all_of_home member) (key?_of_home member),
      waitsFor_of_leads run leads member]
    intro other inside same
    exact leads _ member other inside (same.trans (key?_of_home member).symm)
  · intro site error member
    obtain ⟨inside, read⟩ := (fates items).of_mem_rejections member
    cases found : site.key? with
    | none => exact follows.of_keyless inside read found
    | some key =>
      by_cases first : ∀ other ∈ Site.all items, other.key? = some key → ¬other.place < site.place
      · rw [follows.of_first ordered inside found first,
          waitsFor_of_rejected run leads member found first]
      · obtain ⟨other, earlier, same, before⟩ := by simpa using first
        exact follows.of_later ordered inside earlier before found same
  · exact fun site inside unread => follows.of_unread inside unread

/-- The entities of a round are spliced in place if and only if the struct of each leads those of
its name. -/
theorem in_place_iff (done : ofModule settings head items = .ok expansion) :
    ∃ round, Round.run settings items Buffer.sink {} = .ok round ∧
      let changes := Changes.of round.sink (Site.all items)
      expansion.items = replaceItems changes [] 0 items ++ storeItems settings round.sink.store ∧
      Fates items (homes items) (rejections items) ∧
      (InPlace settings.runtime items changes ↔ LeadsItsName items) := by
  obtain ⟨round, run, rfl⟩ := of_ofModule done
  have follows := follows_of round.sink (Site.ordered_all items).nodup_place
  refine ⟨round, run, ?_, fates items, ?_, inPlace_of_leads run follows⟩
  · obtain ⟨_, record, -, -, completed⟩ := exists_completed_of_run run
    have holds : round.sink.Holds (record.map Prod.fst) := by
      rw [completed.sink]
      exact Buffer.holds_nil.offered (record.map Prod.fst)
    obtain ⟨_, -, places⟩ := splicesAll_spliceItems [] items round.sink holds.distinct
    change (spliceItems [] items round.sink).1 ++ _ = _
    rw [(spliceItems_eq [] 0 [] items round.sink follows).1, places.store]
  · rintro inPlace ⟨home, entity⟩ member site inside same before
    have missing := follows.of_later (Site.ordered_all items) (mem_all_of_home member) inside before
      (key?_of_home member) (same.trans (key?_of_home member))
    rw [inPlace.accepted home entity member] at missing
    cases missing

end Expansion

/-- Every entity of the notes comes in for its own struct. -/
theorem Notes.in_place_items : ∃ expansion round,
    Expansion.ofModule {} app (items ++ [store]) = .ok expansion ∧
    Round.run {} (items ++ [store]) Buffer.sink {} = .ok round ∧
    Expansion.InPlace (Settings.runtime {}) (items ++ [store])
      (.of round.sink (Site.all (items ++ [store]))) := by
  have finished : (Expansion.ofModule {} app (items ++ [store])).toOption.isSome := by
    decide +kernel
  obtain ⟨expansion, found⟩ := Option.isSome_iff_exists.mp finished
  obtain ⟨round, run, -, -, inPlace⟩ := Expansion.in_place_iff (ok_of_toOption found)
  exact ⟨expansion, round, ok_of_toOption found, run, inPlace.mpr (by decide +kernel)⟩

/-! Two structs of one name, each the spec of an entity of its own. There is no room for the store
module. -/
namespace Namesakes

def items : List Item :=
  [Notes.spec "user" ⟨"S", false⟩ [Notes.field [Notes.idMark] "id" Notes.number],
    Notes.spec "team" ⟨"S", false⟩ [Notes.field [Notes.idMark] "id" Notes.number], Notes.store]

def generated : List Code :=
  (Round.entityUnits (Settings.runtime {}) (Round.entitiesOf items)).map GeneratedUnit.code

def expanded : Option (List Code) :=
  (Expansion.ofModule {} Notes.app items).toOption.map fun expansion =>
    expansion.items.map Item.code

/-- The second entity comes in for the first struct, and the first one does not come in at all. -/
theorem later_in_place :
    (Round.homes items).map (fun accepted => (accepted.1.place, accepted.2.name.text)) =
      [([0], "User"), ([1], "Team")] ∧
    ∃ user team, generated = [user, team] ∧ user ≠ team ∧
      expanded = some [team, Notes.store.code] := by
  refine ⟨by decide +kernel, generated[0]?.getD [], generated[1]?.getD [], ?_⟩
  decide +kernel

end Namesakes
end EntityGen
