import EntityGen.Proofs.Spec.Accepted

/-! Where declarations stand. Intake is what is found at the places of a tree of modules, from the
first to the last, and a declaration is read with the names of the modules around its place. -/
namespace EntityGen

/-- A place in a tree of modules: the number of an item of the root, that of an item inside of it,
and so on. Places follow each other as in the source, a module before what stands in it. -/
abbrev Place := List Nat

namespace Item

/-- What stands at a place in an item of the module at `path`, with the modules around it. Only a
module with a body has something in it. -/
def within (path : ModulePath) (item : Item) : Place → Option (ModulePath × Item)
  | [] => some (path, item)
  | i :: rest =>
    match item with
    | .module head (some items) =>
      items[i]?.bind fun inner => inner.within (path ++ [head.name]) rest
    | _ => none

def at? (path : ModulePath) (items : List Item) : Place → Option (ModulePath × Item)
  | [] => none
  | i :: rest => items[i]?.bind fun item => item.within path rest

end Item

structure Site where
  place : Place
  /-- The modules around it. -/
  module : ModulePath
  item : Item

namespace Site

mutual

def ofItem (place : Place) (path : ModulePath) : Item → List Site
  | .struct decl => [⟨place, path, .struct decl⟩]
  | .enum decl => [⟨place, path, .enum decl⟩]
  | .module head none => [⟨place, path, .module head none⟩]
  | .module head (some items) =>
    ⟨place, path, .module head (some items)⟩ :: ofItems place 0 (path ++ [head.name]) items
  | .other name code => [⟨place, path, .other name code⟩]

/-- Items of the module at a place, from the `n`-th one on. -/
def ofItems (outer : Place) (n : Nat) (path : ModulePath) : List Item → List Site
  | [] => []
  | item :: rest => ofItem (outer ++ [n]) path item ++ ofItems outer (n + 1) path rest

end

/-- All that stands in a root module. -/
def all (items : List Item) : List Site := ofItems [] 0 [] items

variable {site : Site} {outer place : Place} {n : Nat} {path : ModulePath} {items : List Item}

theorem mem_singleton_iff {item : Item} : site ∈ [⟨place, path, item⟩] ↔
    site.place = place ∧ (path, item) = (site.module, site.item) := by
  obtain ⟨place', path', item'⟩ := site
  simp [eq_comm]

/-- A leaf has nothing but itself in it. -/
theorem exists_within_iff {item : Item} (leaf : ∀ i rest, item.within path (i :: rest) = none) :
    (∃ rest, site.place = place ++ rest ∧ item.within path rest = some (site.module, site.item)) ↔
      site ∈ [⟨place, path, item⟩] := by
  rw [mem_singleton_iff]
  constructor
  · rintro ⟨_ | ⟨i, rest⟩, here, found⟩
    · exact ⟨by simpa using here, Option.some.inj found⟩
    · rw [leaf] at found
      cases found
  · rintro ⟨here, found⟩
    exact ⟨[], by simpa using here, congrArg some found⟩

mutual

theorem mem_ofItem_iff : (place : Place) → (path : ModulePath) → (item : Item) →
    (site ∈ ofItem place path item ↔ ∃ rest, site.place = place ++ rest ∧
      item.within path rest = some (site.module, site.item))
  | _, _, .struct _ => (exists_within_iff fun _ _ => rfl).symm
  | _, _, .enum _ => (exists_within_iff fun _ _ => rfl).symm
  | _, _, .module _ none => (exists_within_iff fun _ _ => rfl).symm
  | _, _, .other _ _ => (exists_within_iff fun _ _ => rfl).symm
  | place, path, .module head (some items) => by
    rw [ofItem, List.mem_cons, ← List.mem_singleton, mem_singleton_iff,
      mem_ofItems_iff place 0 (path ++ [head.name]) items]
    constructor
    · rintro (⟨here, found⟩ | ⟨k, rest, here, found⟩)
      · exact ⟨[], by simpa using here, congrArg some found⟩
      · exact ⟨k :: rest, by simpa using here, found⟩
    · rintro ⟨_ | ⟨k, rest⟩, here, found⟩
      · exact .inl ⟨by simpa using here, Option.some.inj found⟩
      · exact .inr ⟨k, rest, by simpa using here, found⟩

theorem mem_ofItems_iff : (outer : Place) → (n : Nat) → (path : ModulePath) →
    (items : List Item) → (site ∈ ofItems outer n path items ↔ ∃ k rest,
      site.place = outer ++ (n + k) :: rest ∧
        Item.at? path items (k :: rest) = some (site.module, site.item))
  | _, _, _, [] => by simp [ofItems, Item.at?]
  | outer, n, path, item :: others => by
    rw [ofItems, List.mem_append, mem_ofItem_iff (outer ++ [n]) path item,
      mem_ofItems_iff outer (n + 1) path others]
    constructor
    · rintro (⟨rest, here, found⟩ | ⟨k, rest, here, found⟩)
      · exact ⟨0, rest, by simpa using here, found⟩
      · exact ⟨k + 1, rest, by rw [here]; congr 2; omega, found⟩
    · rintro ⟨_ | k, rest, here, found⟩
      · exact .inl ⟨rest, by simpa using here, found⟩
      · exact .inr ⟨k, rest, by rw [here]; congr 2; omega, found⟩

end

/-- Whatever stands at some place is listed, and nothing else is. -/
theorem mem_all_iff : site ∈ all items ↔
    Item.at? [] items site.place = some (site.module, site.item) := by
  rw [all, mem_ofItems_iff]
  constructor
  · rintro ⟨k, rest, here, found⟩
    rw [here]
    simpa using found
  · intro found
    rcases placed : site.place with _ | ⟨k, rest⟩
    · rw [placed] at found
      cases found
    · exact ⟨k, rest, by simp, placed ▸ found⟩

def Ordered (sites : List Site) : Prop := sites.Pairwise fun a b => a.place < b.place

mutual

theorem ordered_ofItem : (place : Place) → (path : ModulePath) → (item : Item) →
    Ordered (ofItem place path item)
  | _, _, .struct _ | _, _, .enum _ | _, _, .module _ none | _, _, .other _ _ =>
    List.pairwise_singleton ..
  | place, path, .module head (some items) => by
    refine List.pairwise_cons.mpr ⟨fun site inside => ?_, ordered_ofItems place 0 _ items⟩
    obtain ⟨k, rest, here, -⟩ := (mem_ofItems_iff place 0 _ items).mp inside
    have later : place ++ [] < place ++ (0 + k) :: rest := List.append_left_lt (List.nil_lt_cons ..)
    rwa [List.append_nil, ← here] at later

theorem ordered_ofItems : (outer : Place) → (n : Nat) → (path : ModulePath) →
    (items : List Item) → Ordered (ofItems outer n path items)
  | _, _, _, [] => .nil
  | outer, n, path, item :: others => by
    -- The number of the item decides, however deep the two places go on.
    refine List.pairwise_append.mpr ⟨ordered_ofItem (outer ++ [n]) path item,
      ordered_ofItems outer (n + 1) path others, fun first inside site later => ?_⟩
    obtain ⟨rest, here, -⟩ := (mem_ofItem_iff (outer ++ [n]) path item).mp inside
    obtain ⟨k, rest', there, -⟩ := (mem_ofItems_iff outer (n + 1) path others).mp later
    rw [here, there, List.append_assoc]
    exact List.append_left_lt (List.cons_lt_cons_iff.mpr (.inl (by omega)))

end

theorem ordered_all (items : List Item) : Ordered (all items) := ordered_ofItems ..

theorem Ordered.nodup_place {sites : List Site} (ordered : Ordered sites) :
    (sites.map Site.place).Nodup := by
  refine List.pairwise_map.mpr (ordered.imp fun {a b} before same => ?_)
  rw [same] at before
  exact List.lt_irrefl _ before

/-- What reading a declaration comes to that is marked as a spec. -/
def outcome? (site : Site) : Option (Except SpecError Spec) :=
  match site.item with
  | .struct decl =>
    if decl.attrs.any Attribute.isSpec then some (Spec.ofStruct decl site.module) else none
  | .enum decl =>
    if decl.attrs.any Attribute.isSpec then
      some (.error ⟨decl.name.text, .invalid .markedEnum, decl.pos⟩)
    else none
  | .module _ _ | .other _ _ => none

/-- What a marked struct is found by: the modules around it and its own name. -/
def key? (site : Site) : Option (ModulePath × Ident) :=
  match site.item with
  | .struct decl =>
    if decl.attrs.any Attribute.isSpec then some (site.module, decl.name) else none
  | .enum _ | .module _ _ | .other _ _ => none

def spec? (site : Site) : Option Spec := site.outcome?.bind Except.toOption

def error? (site : Site) : Option SpecError :=
  site.outcome?.bind fun
    | .ok _ => none
    | .error error => some error

/-- The warning that a module is passed as it has no body. -/
def warning? (site : Site) : Option String :=
  match site.item with
  | .module head none => some (Intake.bodilessWarning site.module head.name)
  | _ => none

theorem outcome?_isSome {key : ModulePath × Ident} (found : site.key? = some key) :
    site.outcome?.isSome := by
  unfold key? at found
  split at found
  next decl is =>
    split at found
    next marked => simp [outcome?, is, marked]
    next => cases found
  all_goals cases found

theorem outcome?_eq_ok_iff {spec : Spec} :
    site.outcome? = some (.ok spec) ↔ site.spec? = some spec := by
  unfold spec?
  rcases site.outcome? with _ | _ | _ <;> simp [Except.toOption]

/-- A spec is read from a marked struct, with the modules around it. -/
theorem exists_struct_of_spec? {spec : Spec} (read : site.spec? = some spec) :
    ∃ decl, site.item = .struct decl ∧ Spec.ofStruct decl site.module = .ok spec ∧
      site.key? = some (spec.module, spec.ident) := by
  have found := outcome?_eq_ok_iff.mpr read
  unfold outcome? at found
  split at found
  next decl is =>
    split at found
    next marked =>
      have accepted := Option.some.inj found
      obtain ⟨-, module, ident, -⟩ := Spec.of_ofStruct accepted
      exact ⟨decl, is, accepted, by simp [key?, is, marked, module, ident]⟩
    next => cases found
  next =>
    split at found
    next => cases Option.some.inj found
    next => cases found
  all_goals cases found

/-- What the sites come to, one after the other. -/
def gather (sites : List Site) : Intake :=
  ⟨sites.filterMap spec?, sites.filterMap error?, sites.filterMap warning?⟩

theorem gather_append (sites others : List Site) :
    gather (sites ++ others) = gather sites ++ gather others := by
  rw [gather, List.filterMap_append, List.filterMap_append, List.filterMap_append]
  rfl

mutual

theorem gather_ofItem : (place : Place) → (path : ModulePath) → (item : Item) →
    gather (ofItem place path item) = Intake.ofItem path item
  | place, path, .struct decl => by
    rw [ofItem, Intake.ofItem, Intake.ofStruct]
    by_cases marked : decl.attrs.any Attribute.isSpec
    · cases read : Spec.ofStruct decl path <;>
        simp [gather, spec?, error?, warning?, outcome?, marked, read, Except.toOption]
    · simp [gather, spec?, error?, warning?, outcome?, marked]
  | place, path, .enum decl => by
    rw [ofItem, Intake.ofItem, Intake.ofEnum]
    by_cases marked : decl.attrs.any Attribute.isSpec <;>
      simp [gather, spec?, error?, warning?, outcome?, marked, Except.toOption]
  | _, _, .module _ none => rfl
  | place, path, .module head (some items) => by
    rw [ofItem, Intake.ofItem, ← gather_ofItems place 0 (path ++ [head.name]) items]
    rfl
  | _, _, .other _ _ => rfl

theorem gather_ofItems : (outer : Place) → (n : Nat) → (path : ModulePath) →
    (items : List Item) → gather (ofItems outer n path items) = Intake.ofItems path items
  | _, _, _, [] => rfl
  | outer, n, path, item :: others => by
    rw [ofItems, gather_append, gather_ofItem (outer ++ [n]) path item,
      gather_ofItems outer (n + 1) path others, Intake.ofItems]

end

/-- Intake is what is found at all sites of a root module. -/
theorem gather_all (items : List Item) : gather (all items) = Intake.ofItems [] items :=
  gather_ofItems ..

end Site

/-- Intake has found what stands at some sites, which are all there are in a root module: a marked
struct is read with the modules around it, a marked enum is an error, a module without a body is a
warning, and nothing else counts. -/
structure Intake.Finds (items : List Item) (sites : List Site) (intake : Intake) : Prop where
  complete : ∀ site, site ∈ sites ↔
    Item.at? [] items site.place = some (site.module, site.item)
  /-- The sites are in the order of the source, and none is listed twice. -/
  ordered : Site.Ordered sites
  specs : intake.specs = sites.filterMap Site.spec?
  errors : intake.errors = sites.filterMap Site.error?
  warnings : intake.warnings = sites.filterMap Site.warning?

theorem Intake.finds_all (items : List Item) :
    Finds items (Site.all items) (ofItems [] items) := by
  rw [← Site.gather_all]
  exact ⟨fun _ => Site.mem_all_iff, Site.ordered_all items, rfl, rfl, rfl⟩

end EntityGen
