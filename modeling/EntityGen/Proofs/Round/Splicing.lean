import EntityGen.Proofs.Resolve.Partition
import EntityGen.Proofs.Round.Offers
import EntityGen.Round.Expansion

/-! What expansion makes of the items of a module, at every depth. Whatever is no spec is kept, and
what is generated for a spec comes in its place. -/
namespace EntityGen

namespace Item

def isMarked : Item → Bool
  | struct decl => decl.attrs.any Attribute.isSpec
  | enum decl => decl.attrs.any Attribute.isSpec
  | module _ _ | other _ _ => false

def isInline : Item → Bool
  | module _ (some _) => true
  | _ => false

mutual

/-- No item is marked, here or in a module with a body. -/
def Unmarked : Item → Prop
  | struct decl => (struct decl).isMarked = false
  | enum decl => (enum decl).isMarked = false
  | module _ none | other _ _ => True
  | module _ (some items) => AllUnmarked items

def AllUnmarked : List Item → Prop
  | [] => True
  | item :: rest => item.Unmarked ∧ AllUnmarked rest

end

theorem allUnmarked_append {items others : List Item} :
    AllUnmarked (items ++ others) ↔ AllUnmarked items ∧ AllUnmarked others := by
  induction items with
  | nil => simp [AllUnmarked]
  | cons item rest ih => simp [AllUnmarked, ih, and_assoc]

theorem unmarked_of_isInline : {item : Item} → item.isMarked = false → item.isInline = false →
    item.Unmarked
  | struct _, unmarked, _ | enum _, unmarked, _ => unmarked
  | module _ none, _, _ | other _ _, _, _ => trivial
  | module _ (some _), _, whole => nomatch whole

end Item

/-- What a struct is found by: the path of its module and its own name. -/
abbrev StructKey := ModulePath × Ident

def StructKey.of (declared : ModulePath × Struct) : StructKey := (declared.1, declared.2.name)

namespace Expansion

mutual

/-- What an item of the module at `path` may become. `placed` is the code that comes in, with the
struct whose place it takes. -/
inductive Splices : ModulePath → Item → List Item → List (StructKey × Code) → Prop
  | kept {path item} (unmarked : item.isMarked = false) (whole : item.isInline = false) :
    Splices path item [item] []
  | inside {path head items spliced placed}
    (inner : SplicesAll (path ++ [head.name]) items spliced placed) :
    Splices path (.module head (some items)) [.module head (some spliced)] placed
  | replaced {path decl} (marked : (Item.struct decl).isMarked) (code : Code) :
    Splices path (.struct decl) [.other none code] [((path, decl.name), code)]
  | dropped {path item} (marked : item.isMarked) : Splices path item [] []

/-- What the items of the module at `path` may become, one after the other. -/
inductive SplicesAll : ModulePath → List Item → List Item → List (StructKey × Code) → Prop
  | nil {path} : SplicesAll path [] [] []
  | cons {path item rest first others placed more} (here : Splices path item first placed)
    (later : SplicesAll path rest others more) :
    SplicesAll path (item :: rest) (first ++ others) (placed ++ more)

end

mutual

theorem Splices.unmarked {path item spliced placed} :
    Splices path item spliced placed → Item.AllUnmarked spliced
  | .kept unmarked whole => ⟨Item.unmarked_of_isInline unmarked whole, trivial⟩
  | .inside inner => ⟨inner.unmarked, trivial⟩
  | .replaced _ _ => ⟨trivial, trivial⟩
  | .dropped _ => trivial

theorem SplicesAll.unmarked {path items spliced placed} :
    SplicesAll path items spliced placed → Item.AllUnmarked spliced
  | .nil => trivial
  | .cons here later => Item.allUnmarked_append.mpr ⟨here.unmarked, later.unmarked⟩

end

end Expansion

namespace Buffer

variable {buffer rest later : Buffer} {placed more : List (StructKey × Code)} {key : StructKey}
  {code : Code}

/-- No two units wait for one struct. -/
def Distinct (buffer : Buffer) : Prop := (buffer.entities.map Prod.fst).Nodup

/-- Of what waits in one buffer, `placed` is put in place and the rest waits in another. -/
structure Places (buffer : Buffer) (placed : List (StructKey × Code)) (rest : Buffer) : Prop where
  entities : buffer.entities.Perm (placed ++ rest.entities)
  store : rest.store = buffer.store

theorem Places.refl (buffer : Buffer) : buffer.Places [] buffer := ⟨.rfl, rfl⟩

theorem Places.trans (first : buffer.Places placed rest) (second : rest.Places more later) :
    buffer.Places (placed ++ more) later := by
  refine ⟨?_, second.store.trans first.store⟩
  rw [List.append_assoc]
  exact first.entities.trans (second.entities.append_left placed)

theorem Places.distinct (places : buffer.Places placed rest) (distinct : buffer.Distinct) :
    rest.Distinct := by
  have keys := (places.entities.map Prod.fst).nodup_iff.mp distinct
  rw [List.map_append] at keys
  exact keys.of_append_right

theorem filter_ne_of_notMem {entities : List (StructKey × Code)}
    (absent : key ∉ entities.map Prod.fst) :
    entities.filter (fun (other, _) => other != key) = entities := by
  refine List.filter_eq_self.mpr fun entry member => bne_iff_ne.mpr ?_
  rintro rfl
  exact absent (List.mem_map_of_mem member)

theorem perm_of_find? {entities : List (StructKey × Code)}
    (distinct : (entities.map Prod.fst).Nodup)
    (found : entities.find? (fun (other, _) => other == key) = some (key, code)) :
    entities.Perm ((key, code) :: entities.filter fun (other, _) => other != key) := by
  induction entities with
  | nil => cases found
  | cons entry rest ih =>
    obtain ⟨absent, distinct⟩ := List.nodup_cons.mp distinct
    by_cases same : entry.1 = key
    · obtain rfl : entry = (key, code) := by simpa [same] using found
      rw [List.filter_cons_of_neg (by simp), filter_ne_of_notMem absent]
    · rw [List.find?_cons_of_neg (by simpa using same)] at found
      rw [List.filter_cons_of_pos (by simpa using same)]
      exact ((ih distinct found).cons entry).trans (.swap ..)

theorem take_of_some {module : ModulePath} {spec : Ident}
    (taken : buffer.take module spec = (some code, rest)) (distinct : buffer.Distinct) :
    buffer.Places [((module, spec), code)] rest ∧
      rest.entities = buffer.entities.filter fun (key, _) => key != (module, spec) := by
  unfold take at taken
  split at taken
  next key found here =>
    obtain ⟨same, rfl⟩ := Prod.mk.inj taken
    obtain rfl := Option.some.inj same
    obtain rfl : key = (module, spec) := by simpa using List.find?_some here
    exact ⟨⟨perm_of_find? distinct here, rfl⟩, rfl⟩
  next => cases taken

theorem take_of_none {module : ModulePath} {spec : Ident}
    (taken : buffer.take module spec = (none, rest)) :
    rest = buffer ∧
      buffer.entities.filter (fun (key, _) => key != (module, spec)) = buffer.entities := by
  unfold take at taken
  split at taken
  next => cases taken
  next absent =>
    refine ⟨(Prod.mk.inj taken).2.symm, filter_ne_of_notMem fun waits => ?_⟩
    obtain ⟨entry, member, same⟩ := List.mem_map.mp waits
    exact List.find?_eq_none.mp absent entry member (by simp [same])

/-- What waits in a buffer that was offered units. -/
structure Holds (units : List GeneratedUnit) (buffer : Buffer) : Prop where
  distinct : buffer.Distinct
  emitted : ∀ key code, (key, code) ∈ buffer.entities →
    ∃ unit ∈ units, unit.placement = .entity key.1 key.2 ∧ unit.code = code
  waits : ∀ unit ∈ units, ∀ module spec, unit.placement = .entity module spec →
    (module, spec) ∈ buffer.entities.map Prod.fst
  store : buffer.store =
    (units.filter fun unit => unit.placement == .store).map GeneratedUnit.code

theorem distinct_add {entities : List (StructKey × Code)}
    (distinct : (entities.map Prod.fst).Nodup) (key : StructKey) (code : Code) :
    ((entities.filter (fun (other, _) => other != key) ++ [(key, code)]).map Prod.fst).Nodup := by
  rw [List.map_append, List.nodup_append]
  refine ⟨distinct.sublist (List.filter_sublist.map _), List.nodup_singleton _, ?_⟩
  rintro other member _ last rfl
  obtain ⟨entry, kept, rfl⟩ := List.mem_map.mp member
  simpa [List.mem_singleton.mp last] using (List.mem_filter.mp kept).2

theorem mem_keys_add {entities : List (StructKey × Code)} {other : StructKey} :
    other ∈ (entities.filter (fun (other, _) => other != key) ++ [(key, code)]).map Prod.fst ↔
      other ∈ entities.map Prod.fst ∨ other = key := by
  by_cases same : other = key
  · simp [same]
  · simp [same]

variable {units : List GeneratedUnit}

theorem Holds.add_entity (holds : buffer.Holds units) (unit : GeneratedUnit)
    {module : ModulePath} {spec : Ident} (placed : unit.placement = .entity module spec) :
    (buffer.add unit).Holds (units ++ [unit]) := by
  have added : buffer.add unit = { buffer with
      entities := buffer.entities.filter (fun (key, _) => key != (module, spec)) ++
        [((module, spec), unit.code)] } := by rw [add, placed]
  rw [added]
  refine ⟨distinct_add holds.distinct .., ?_, ?_, ?_⟩
  · intro key code member
    rcases List.mem_append.mp member with before | here
    · obtain ⟨earlier, member, found⟩ := holds.emitted key code (List.mem_filter.mp before).1
      exact ⟨earlier, List.mem_append_left _ member, found⟩
    · obtain ⟨rfl, rfl⟩ := Prod.mk.inj (List.mem_singleton.mp here)
      exact ⟨unit, List.mem_append_right _ (List.mem_singleton_self _), placed, rfl⟩
  · intro other member module' spec' placed'
    refine mem_keys_add.mpr ?_
    rcases List.mem_append.mp member with before | here
    · exact .inl (holds.waits other before module' spec' placed')
    · obtain rfl := List.mem_singleton.mp here
      exact .inr (by cases placed.symm.trans placed'; rfl)
  · rw [holds.store, List.filter_append, List.map_append]
    simp [placed]

theorem Holds.add_store (holds : buffer.Holds units) (unit : GeneratedUnit)
    (placed : unit.placement = .store) : (buffer.add unit).Holds (units ++ [unit]) := by
  have added : buffer.add unit = { buffer with store := buffer.store ++ [unit.code] } := by
    rw [add, placed]
  rw [added]
  refine ⟨holds.distinct, ?_, ?_, ?_⟩
  · intro key code member
    obtain ⟨earlier, before, found⟩ := holds.emitted key code member
    exact ⟨earlier, List.mem_append_left _ before, found⟩
  · intro other member module spec placed'
    rcases List.mem_append.mp member with before | here
    · exact holds.waits other before module spec placed'
    · obtain rfl := List.mem_singleton.mp here
      cases placed.symm.trans placed'
  · rw [holds.store, List.filter_append, List.map_append]
    simp [placed]

theorem Holds.add (holds : buffer.Holds units) (unit : GeneratedUnit) :
    (buffer.add unit).Holds (units ++ [unit]) := by
  cases placed : unit.placement with
  | entity => exact holds.add_entity unit placed
  | store => exact holds.add_store unit placed

theorem holds_nil : Buffer.Holds [] {} := ⟨List.nodup_nil, nofun, nofun, rfl⟩

/-- A buffer holds what it was offered. -/
theorem Holds.offered (holds : buffer.Holds units) (later : List GeneratedUnit) :
    (Round.offered sink buffer later).Holds (units ++ later) := by
  induction later generalizing units buffer with
  | nil => simpa [Round.offered] using holds
  | cons unit rest ih =>
    rw [List.append_cons]
    exact ih (holds.add unit)

end Buffer

namespace Expansion

open Buffer

variable {path : ModulePath} {buffer : Buffer}

mutual

/-- Splicing an item keeps to the rules, and what it puts in place no longer waits. -/
theorem splices_spliceItem : (path : ModulePath) → (item : Item) → (buffer : Buffer) →
    buffer.Distinct → ∃ placed, Splices path item (spliceItem path item buffer).1 placed ∧
      buffer.Places placed (spliceItem path item buffer).2
  | path, .struct decl, buffer, distinct => by
    rw [spliceItem]
    by_cases marked : decl.attrs.any Attribute.isSpec
    · rw [if_pos marked]
      rcases taken : buffer.take path decl.name with ⟨_ | code, rest⟩
      · obtain ⟨rfl, -⟩ := take_of_none taken
        exact ⟨[], .dropped marked, .refl _⟩
      · exact ⟨_, .replaced marked code, (take_of_some taken distinct).1⟩
    · rw [if_neg marked]
      exact ⟨[], .kept (Bool.eq_false_iff.mpr marked) rfl, .refl _⟩
  | path, .enum decl, buffer, _ => by
    rw [spliceItem]
    by_cases marked : decl.attrs.any Attribute.isSpec
    · rw [if_pos marked]
      exact ⟨[], .dropped marked, .refl _⟩
    · rw [if_neg marked]
      exact ⟨[], .kept (Bool.eq_false_iff.mpr marked) rfl, .refl _⟩
  | _, .module _ none, _, _ => ⟨[], .kept rfl rfl, .refl _⟩
  | path, .module head (some items), buffer, distinct => by
    obtain ⟨placed, inner, places⟩ :=
      splicesAll_spliceItems (path ++ [head.name]) items buffer distinct
    exact ⟨placed, .inside inner, places⟩
  | _, .other _ _, _, _ => ⟨[], .kept rfl rfl, .refl _⟩

theorem splicesAll_spliceItems : (path : ModulePath) → (items : List Item) → (buffer : Buffer) →
    buffer.Distinct → ∃ placed, SplicesAll path items (spliceItems path items buffer).1 placed ∧
      buffer.Places placed (spliceItems path items buffer).2
  | _, [], buffer, _ => ⟨[], .nil, .refl buffer⟩
  | path, item :: rest, buffer, distinct => by
    obtain ⟨placed, here, places⟩ := splices_spliceItem path item buffer distinct
    obtain ⟨more, later, placesMore⟩ :=
      splicesAll_spliceItems path rest _ (places.distinct distinct)
    exact ⟨placed ++ more, .cons here later, places.trans placesMore⟩

end

def marks (path : ModulePath) (items : List Item) : List StructKey :=
  (Intake.structsOfItems path items).map StructKey.of

def waiting (keys : List StructKey) (entities : List (StructKey × Code)) :
    List (StructKey × Code) :=
  entities.filter fun (key, _) => !keys.contains key

theorem waiting_nil (entities : List (StructKey × Code)) : waiting [] entities = entities := by
  simp [waiting]

theorem waiting_singleton (key : StructKey) (entities : List (StructKey × Code)) :
    waiting [key] entities = entities.filter fun (other, _) => other != key := by
  refine List.filter_congr fun (other, _) _ => ?_
  change (!([key].contains other)) = (other != key)
  rw [List.contains_cons, List.contains_nil, Bool.or_false, bne]

theorem waiting_append (keys more : List StructKey) (entities : List (StructKey × Code)) :
    waiting (keys ++ more) entities = waiting more (waiting keys entities) := by
  simp [waiting, List.filter_filter, Bool.and_comm]

mutual

/-- Nothing waits any longer for a struct that was passed. -/
theorem entities_spliceItem : (path : ModulePath) → (item : Item) → (buffer : Buffer) →
    buffer.Distinct → (spliceItem path item buffer).2.entities =
      waiting ((Intake.structsOfItem path item).map StructKey.of) buffer.entities
  | path, .struct decl, buffer, distinct => by
    rw [spliceItem, Intake.structsOfItem]
    by_cases marked : decl.attrs.any Attribute.isSpec
    · rw [if_pos marked, if_pos marked, List.map_singleton, waiting_singleton, StructKey.of]
      rcases taken : buffer.take path decl.name with ⟨_ | code, rest⟩
      · obtain ⟨rfl, same⟩ := take_of_none taken
        exact same.symm
      · exact (take_of_some taken distinct).2
    · rw [if_neg marked, if_neg marked, List.map_nil, waiting_nil]
  | path, .enum decl, buffer, _ => by
    rw [spliceItem, Intake.structsOfItem, List.map_nil, waiting_nil]
    split <;> rfl
  | _, .module _ none, buffer, _ => (waiting_nil _).symm
  | path, .module head (some items), buffer, distinct =>
    entities_spliceItems (path ++ [head.name]) items buffer distinct
  | _, .other _ _, buffer, _ => (waiting_nil _).symm

theorem entities_spliceItems : (path : ModulePath) → (items : List Item) → (buffer : Buffer) →
    buffer.Distinct →
    (spliceItems path items buffer).2.entities = waiting (marks path items) buffer.entities
  | _, [], buffer, _ => (waiting_nil _).symm
  | path, item :: rest, buffer, distinct => by
    obtain ⟨_, -, places⟩ := splices_spliceItem path item buffer distinct
    rw [marks, Intake.structsOfItems, List.map_append, waiting_append,
      ← entities_spliceItem path item buffer distinct]
    exact entities_spliceItems path rest _ (places.distinct distinct)

end

/-- Every spec is declared by a struct that is passed. -/
theorem mem_marks_of_mem_specs {items : List Item} {spec : Spec}
    (member : spec ∈ (Intake.ofItems path items).specs) :
    (spec.module, spec.ident) ∈ marks path items := by
  obtain ⟨declared, inside, accepted⟩ := Intake.exists_struct_of_mem_ofItems path items spec member
  obtain ⟨-, sameModule, sameIdent, -⟩ := Spec.of_ofStruct accepted
  rw [sameModule, sameIdent]
  exact List.mem_map_of_mem inside

variable {settings : Settings} {head : ModuleHead} {items : List Item} {expansion : Expansion}

theorem mem_specs_of_mem_entitiesOf {entity : Entity} (member : entity ∈ Round.entitiesOf items) :
    entity.spec ∈ (Intake.ofItems [] items).specs := by
  obtain ⟨spec, accepted, rfl⟩ := Resolution.mem_entities_iff.mp member
  exact (Resolution.faithful_sort _).members spec accepted

theorem unmarked_others (codes : List Code) : Item.AllUnmarked (codes.map (.other none)) := by
  induction codes with
  | nil => trivial
  | cons code rest ih => exact ⟨trivial, ih⟩

/-- The store module, if there is something in it. -/
def storeItems (settings : Settings) (codes : List Code) : List Item :=
  if codes.isEmpty then [] else [storeModule settings.store codes]

theorem unmarked_storeItems (codes : List Code) :
    Item.AllUnmarked (storeItems settings codes) := by
  unfold storeItems
  split
  · trivial
  · exact ⟨unmarked_others codes, trivial⟩

/-- What expansion makes of a module, by the units that were emitted for it. `spliced` is what has
become of its items, and `placed` is the code that has come into them. -/
structure Expanded (settings : Settings) (head : ModuleHead) (items : List Item)
    (units : List GeneratedUnit) (diagnostics : List Diagnostic) (spliced : List Item)
    (placed : List (StructKey × Code)) (expansion : Expansion) : Prop where
  frame : expansion.head = head
  splices : SplicesAll [] items spliced placed
  /-- The units of the store side stand in the last item, in the order in which they came. -/
  content : expansion.items = spliced ++ storeItems settings
    ((units.filter fun unit => unit.placement == .store).map GeneratedUnit.code)
  unmarked : Item.AllUnmarked expansion.items
  /-- What has come in was emitted for the struct in whose place it stands. -/
  emitted : ∀ key code, (key, code) ∈ placed →
    ∃ unit ∈ units, unit.placement = .entity key.1 key.2 ∧ unit.code = code
  distinct : (placed.map Prod.fst).Nodup
  /-- No unit has been lost. -/
  complete : ∀ unit ∈ units, ∀ module spec, unit.placement = .entity module spec →
    (module, spec) ∈ placed.map Prod.fst
  /-- What is written of an entity does not mark it as a spec. -/
  carried : ∀ entity ∈ Round.entitiesOf items, ∀ attr ∈ entity.spec.attrs, attr.isSpec = false
  code : expansion.code = head.around (Item.codes expansion.items) ++
    diagnostics.flatMap Diagnostic.compileError

theorem isSpec_of_mem_attrs {spec : Spec} {attr : Attribute}
    (member : spec ∈ (Intake.ofItems path items).specs) (inside : attr ∈ spec.attrs) :
    attr.isSpec = false := by
  obtain ⟨declared, -, accepted⟩ := Intake.exists_struct_of_mem_ofItems path items spec member
  obtain ⟨-, -, -, attrs, -⟩ := Spec.of_ofStruct accepted
  rw [attrs] at inside
  have carried := (List.mem_filter.mp inside).2
  unfold Attribute.isCarried at carried
  rw [Bool.and_eq_true, Bool.and_eq_true, Bool.not_eq_true'] at carried
  exact carried.1.1

/-- The structs that a buffer waits for are those of entities. -/
theorem mem_marks_of_holds {store : List GeneratedUnit}
    (side : Round.StoreUnits settings items store)
    (holds : buffer.Holds (Round.entityUnits settings.runtime (Round.entitiesOf items) ++ store)) :
    ∀ key ∈ buffer.entities.map Prod.fst, key ∈ marks [] items := by
  intro key member
  obtain ⟨⟨⟨module, spec⟩, code⟩, inside, rfl⟩ := List.mem_map.mp member
  obtain ⟨unit, emitted, placed, -⟩ := holds.emitted (module, spec) code inside
  rcases List.mem_append.mp emitted with entityUnit | storeUnit
  · obtain ⟨entity, accepted, rfl⟩ := List.mem_map.mp entityUnit
    obtain ⟨rfl, rfl⟩ := Placement.entity.inj placed
    exact mem_marks_of_mem_specs (mem_specs_of_mem_entitiesOf accepted)
  · rw [side.placement_of_mem storeUnit] at placed
    cases placed

theorem of_ofModule (done : ofModule settings head items = .ok expansion) :
    ∃ round, Round.run settings items Buffer.sink {} = .ok round ∧
      let (spliced, rest) := spliceItems [] items round.sink
      expansion = ⟨head, spliced ++ storeItems settings rest.store, round.reports.diagnostics⟩ := by
  obtain ⟨round, run, done⟩ := ok_of_bind done
  obtain ⟨_, -, done⟩ := ok_of_bind done
  exact ⟨round, ok_of_mapError run, (Except.ok.inj done).symm⟩

/-- Expansion keeps whatever is no spec, and puts each unit in the place that is meant for it. -/
theorem expanded_of_ofModule (done : ofModule settings head items = .ok expansion) :
    ∃ round record spliced placed, Round.run settings items Buffer.sink {} = .ok round ∧
      Round.run settings items Buffer.sink.recorded ({}, []) =
        .ok { round with sink := (round.sink, record) } ∧
      Expanded settings head items (record.map Prod.fst) round.reports.diagnostics spliced placed
        expansion := by
  obtain ⟨round, run, rfl⟩ := of_ofModule done
  obtain ⟨store, record, side, recorded, completed⟩ := Round.exists_completed_of_run run
  have holds : round.sink.Holds (record.map Prod.fst) := by
    rw [completed.sink]
    exact holds_nil.offered (record.map Prod.fst)
  obtain ⟨placed, splices, places⟩ := splicesAll_spliceItems [] items round.sink holds.distinct
  have nothing : (spliceItems [] items round.sink).2.entities = [] := by
    rw [entities_spliceItems [] items round.sink holds.distinct]
    refine List.filter_eq_nil_iff.mpr fun entry member => ?_
    have passed := mem_marks_of_holds side (completed.units ▸ holds) entry.1
      (List.mem_map_of_mem member)
    simpa using passed
  have same : round.sink.entities.Perm placed := by
    simpa [nothing] using places.entities
  refine ⟨round, record, (spliceItems [] items round.sink).1, placed, run, recorded, ?_⟩
  exact {
    frame := rfl
    splices
    content := by rw [places.store, holds.store]
    unmarked := Item.allUnmarked_append.mpr ⟨splices.unmarked, unmarked_storeItems _⟩
    emitted := fun key code member => holds.emitted key code (same.mem_iff.mpr member)
    distinct := (same.map Prod.fst).nodup_iff.mp holds.distinct
    complete := fun unit member module spec meant =>
      (same.map Prod.fst).mem_iff.mp (holds.waits unit member module spec meant)
    carried := fun entity member _ => isSpec_of_mem_attrs (mem_specs_of_mem_entitiesOf member)
    code := rfl }

end Expansion

namespace Notes

def app : ModuleHead :=
  { attrs := [], vis := [.plain "pub"], marker := [], name := ⟨"app", false⟩, namePos := .none }

/-- An item that takes the name of the store module. -/
def store : Item := .other (some (⟨"store", false⟩, .none)) [.plain "mod", .plain "store"]

/-- Both entities come in, although there is no room for the store module. -/
theorem expanded_notes : ∃ expansion round spliced placed, ∃ record : Record,
    Expansion.ofModule {} app (items ++ [store]) = .ok expansion ∧
    Round.run {} (items ++ [store]) Buffer.sink {} = .ok round ∧
    Expansion.Expanded {} app (items ++ [store]) (record.map Prod.fst) round.reports.diagnostics
      spliced placed expansion := by
  have finished : (Expansion.ofModule {} app (items ++ [store])).toOption.isSome := by
    decide +kernel
  cases done : Expansion.ofModule {} app (items ++ [store]) with
  | error cause =>
    rw [done] at finished
    cases finished
  | ok expansion =>
    obtain ⟨round, record, spliced, placed, run, -, expanded⟩ :=
      Expansion.expanded_of_ofModule done
    exact ⟨expansion, round, spliced, placed, record, rfl, run, expanded⟩

end Notes
end EntityGen
