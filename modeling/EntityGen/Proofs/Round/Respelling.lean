import EntityGen.Proofs.Resolve.RespelledSpecs
import EntityGen.Proofs.Round.StoreName
import Mathlib.Data.List.Sort

/-! Rounds over items that are spelled with and without raw names. A raw name is the same identifier
as one without the mark, but a round goes by how names are written where it looks for the name of the
constructor, for names of specs and of containers, and for the name of the store module. Where these
are spelled alike, the outcome is the same. -/
namespace EntityGen

/-- An item in two spellings. Fields of specs are related by `R`, and whatever is not judged is left
open. -/
inductive Item.Respelled (R : Field → Field → Prop) : Item → Item → Prop
  | struct {decl other : Struct} (same : decl.Respelled Field.Respelled other)
    (judged : decl.attrs.any Attribute.isSpec → decl.fields.Respelled R other.fields) :
    Respelled R (.struct decl) (.struct other)
  | enum {decl other : Enum} (attrs : decl.attrs = other.attrs)
    (name : decl.name.unraw = other.name.unraw) : Respelled R (.enum decl) (.enum other)
  | bodiless {head other : ModuleHead} (name : head.name.unraw = other.name.unraw) :
    Respelled R (.module head none) (.module other none)
  | module {head other : ModuleHead} {items others : List Item}
    (name : head.name.unraw = other.name.unraw) (inner : List.Forall₂ (Respelled R) items others) :
    Respelled R (.module head (some items)) (.module other (some others))
  | other {name name' : Option (Ident × Pos)} {code code' : Code}
    (same : name.map (fun name => name.1.unraw) = name'.map fun name => name.1.unraw) :
    Respelled R (.other name code) (.other name' code')

structure Site.Respelled (R : Field → Field → Prop) (site other : Site) : Prop where
  place : site.place = other.place
  module : site.module.map Ident.unraw = other.module.map Ident.unraw
  item : site.item.Respelled R other.item

namespace Site

variable {R : Field → Field → Prop}

mutual

theorem respelled_ofItem {path path' : ModulePath}
    (around : path.map Ident.unraw = path'.map Ident.unraw) : (place : Place) →
    (item other : Item) → item.Respelled R other →
    List.Forall₂ (Site.Respelled R) (ofItem place path item) (ofItem place path' other)
  | place, .struct decl, _, respelled => by
    cases respelled with
    | struct same judged => exact .cons ⟨rfl, around, .struct same judged⟩ .nil
  | place, .enum decl, _, respelled => by
    cases respelled with
    | enum attrs name => exact .cons ⟨rfl, around, .enum attrs name⟩ .nil
  | place, .module head none, _, respelled => by
    cases respelled with
    | bodiless name => exact .cons ⟨rfl, around, .bodiless name⟩ .nil
  | place, .module head (some items), _, respelled => by
    cases respelled with
    | @module _ other _ others name inner =>
      have inside : (path ++ [head.name]).map Ident.unraw = (path' ++ [other.name]).map Ident.unraw := by
        rw [List.map_append, List.map_append, around, List.map_singleton, List.map_singleton, name]
      exact .cons ⟨rfl, around, .module name inner⟩
        (respelled_ofItems inside place 0 items others inner)
  | place, .other name code, _, respelled => by
    cases respelled with
    | other same => exact .cons ⟨rfl, around, .other same⟩ .nil

theorem respelled_ofItems {path path' : ModulePath}
    (around : path.map Ident.unraw = path'.map Ident.unraw) : (outer : Place) →
    (n : Nat) → (items others : List Item) → List.Forall₂ (Item.Respelled R) items others →
    List.Forall₂ (Site.Respelled R) (ofItems outer n path items) (ofItems outer n path' others)
  | _, _, [], _, each => by
    obtain rfl := List.forall₂_nil_left_iff.mp each
    exact .nil
  | outer, n, item :: rest, _, each => by
    obtain ⟨other, others, first, later, rfl⟩ := List.forall₂_cons_left_iff.mp each
    exact List.rel_append (respelled_ofItem around (outer ++ [n]) item other first)
      (respelled_ofItems around outer (n + 1) rest others later)

end

theorem respelled_all {items others : List Item} (each : List.Forall₂ (Item.Respelled R) items others) :
    List.Forall₂ (Site.Respelled R) (all items) (all others) := respelled_ofItems rfl [] 0 _ _ each

variable {specs : List Spec} {site other : Site}

/-- What is read at a place is related if structs and errors are. -/
theorem outcome?_rel {J : Except SpecError Spec → Except SpecError Spec → Prop}
    (same : site.Respelled R other)
    (structs : ∀ decl decl' : Struct, decl.Respelled R decl' →
      J (Spec.ofStruct decl site.module) (Spec.ofStruct decl' other.module))
    (errors : ∀ error error' : SpecError, error.fault.Alike error'.fault →
      J (.error error) (.error error')) : Option.Rel J site.outcome? other.outcome? := by
  obtain ⟨place, module, item⟩ := site
  obtain ⟨place', module', item'⟩ := other
  obtain ⟨-, -, item⟩ := same
  dsimp only at item
  unfold outcome?
  cases item with
  | @struct decl _ same judged =>
    dsimp only
    rw [← same.attrs]
    split
    next marked =>
      exact .some (structs _ _ ⟨same.attrs, same.name, same.generics, same.bounded, judged marked⟩)
    next => exact .none
  | enum attrs name =>
    dsimp only
    rw [attrs]
    split
    · exact .some (errors _ _ (.invalid _ _))
    · exact .none
  | bodiless | module | other => exact .none

theorem marked_respelled (same : site.Respelled R other) :
    site.outcome?.isSome = other.outcome?.isSome := by
  have both : Option.Rel (fun _ _ => True) site.outcome? other.outcome? :=
    outcome?_rel same (fun _ _ _ => trivial) fun _ _ _ => trivial
  generalize site.outcome? = here, other.outcome? = there at both
  cases both <;> rfl

/-- Specs that are read at one place are the same in two spellings. -/
theorem respelled_of_spec? {spec spec' : Spec} (same : site.Respelled R other)
    (left : site.spec? = some spec) (right : other.spec? = some spec') :
    spec.Respelled SpecField.Respelled spec' := by
  obtain ⟨decl, is, read, -⟩ := exists_struct_of_spec? left
  obtain ⟨decl', is', read', -⟩ := exists_struct_of_spec? right
  have item := same.item
  rw [is, is'] at item
  cases item with
  | struct declared => exact Spec.respelled_of_ofStruct declared same.module read read'

/-- What is judged at a place is judged alike. -/
theorem outcome?_respelled (same : site.Respelled (Field.LooksAlike specs) other) :
    Option.Rel (Spec.JudgedAlike (SpecField.LooksAlike specs)) site.outcome? other.outcome? :=
  outcome?_rel same (fun _ _ alike => Spec.judgedAlike_ofStruct alike same.module)
    fun _ _ => .rejected

theorem spec?_respelled (same : site.Respelled (Field.LooksAlike specs) other) :
    Option.Rel (Resolution.LooksAlike specs) site.spec? other.spec? := by
  refine rel_bind (outcome?_respelled same) fun judged judged' alike => ?_
  cases alike with
  | accepted same => exact .some same
  | rejected => exact .none

theorem error?_respelled (same : site.Respelled (Field.LooksAlike specs) other) :
    Option.Rel (fun error error' => error.fault.Alike error'.fault) site.error? other.error? := by
  refine rel_bind (outcome?_respelled same) fun judged judged' alike => ?_
  cases alike with
  | accepted => exact .none
  | rejected same => exact .some same

end Site

namespace Round

variable {settings : Settings} {items others : List Item}

/-- What becomes of the declarations of two rounds is the same, and so is the clash of the store
module. -/
structure SameOutcome (settings : Settings) (items others : List Item) : Prop where
  /-- At the same places there are the same entities, whose properties have the same trees. -/
  homes : List.Forall₂ (fun home other => home.1.place = other.1.place ∧ home.2.Respelled other.2)
    (homes items) (homes others)
  /-- At the same places there are errors of the same kinds. -/
  rejections : List.Forall₂ (fun rejection other => rejection.1.place = other.1.place ∧
      (Diagnostic.spec rejection.2).kind = (Diagnostic.spec other.2).kind)
    (rejections items) (rejections others)
  storeClash : (storeClash? settings items).map Clash.message =
    (storeClash? settings others).map Clash.message

/-- Rounds over two spellings of the same items come out differently. -/
def SpellingMatters (settings : Settings) (items others : List Item) : Prop :=
  List.Forall₂ (Item.Respelled Field.Respelled) items others ∧ ¬SameOutcome settings items others

/-- Items of the root module are called as the store module in both spellings or in none. -/
def StoreLooksAlike (settings : Settings) (items others : List Item) : Prop :=
  (∃ item ∈ items, item.ownName? = some settings.store) ↔
    ∃ item ∈ others, item.ownName? = some settings.store

theorem message_storeClash? : (storeClash? settings items).map Clash.message =
    if (storeClash? settings items).isSome then
      some (Clash.storeModule .store settings.store.text .none).message
    else none := by
  rw [storeClash?]
  cases items.findSome? fun item => item.declared?.filter fun declared =>
    declared.1 == settings.store <;> rfl

theorem storeClash_same_iff : (storeClash? settings items).map Clash.message =
    (storeClash? settings others).map Clash.message ↔ StoreLooksAlike settings items others := by
  rw [message_storeClash?, message_storeClash?, StoreLooksAlike, ← storeClash?_isSome_iff,
    ← storeClash?_isSome_iff]
  cases (storeClash? settings items).isSome <;> cases (storeClash? settings others).isSome <;> simp

def holding (items : List Item) : List (List Bool) :=
  (homes items).map fun home => home.2.properties.map fun property => property.resolved.holdsEntities

theorem holding_eq_of_sameOutcome (outcome : SameOutcome settings items others) :
    holding items = holding others := by
  refine map_eq_of_forall₂ outcome.homes fun home other alike => ?_
  refine map_eq_of_forall₂ alike.2.properties fun property property' here => ?_
  rw [← ResolvedType.holdsEntities_unraw, here.resolved, ResolvedType.holdsEntities_unraw]

theorem kind_eq_of_alike {error other : SpecError} (same : error.fault.Alike other.fault) :
    (Diagnostic.spec error).kind = (Diagnostic.spec other).kind := by
  obtain ⟨_, fault, _⟩ := error
  obtain ⟨_, fault', _⟩ := other
  cases same <;> rfl

/-- Errors stand at the same places and are of the same kinds. -/
def RejectedAlike (items others : List Item) : Prop :=
  List.Forall₂ (fun rejection other => rejection.1.place = other.1.place ∧
    (Diagnostic.spec rejection.2).kind = (Diagnostic.spec other.2).kind)
    (rejections items) (rejections others)

/-- At each place with an entity in both rounds the types of its fields are looked up alike, in the
tables of the two rounds. -/
def LookedUpAlike (items others : List Item) : Prop :=
  ∀ home ∈ homes items, ∀ other ∈ homes others, home.1.place = other.1.place →
    List.Forall₂ (fun field field' =>
      (tableOf items).ReadsAlike (tableOf others) field.ty field'.ty)
      home.2.spec.fields other.2.spec.fields

section Exact

variable {R : Field → Field → Prop} {home other : Site × Entity}
  (same : List.Forall₂ (Item.Respelled R) items others)

include same

theorem site_respelled (here : home ∈ homes items) (there : other ∈ homes others)
    (place : home.1.place = other.1.place) : home.1.Respelled R other.1 :=
  rel_of_key (Site.respelled_all same) (fun _ _ alike => alike.place)
    (Site.ordered_all others).nodup_place (of_mem_homes here).1 (of_mem_homes there).1 place

/-- Two entities at one place have the same trees if and only if their types are looked up alike. -/
theorem home_respelled_iff (here : home ∈ homes items) (there : other ∈ homes others)
    (place : home.1.place = other.1.place) : home.2.Respelled other.2 ↔
      List.Forall₂ (fun field field' =>
        (tableOf items).ReadsAlike (tableOf others) field.ty field'.ty)
        home.2.spec.fields other.2.spec.fields := by
  have spec := Site.respelled_of_spec? (site_respelled same here there place)
    (of_mem_homes here).2 (of_mem_homes there).2
  rw [← Resolution.entity_respelled_iff spec, ← eq_entity_of_mem_homes here,
    ← eq_entity_of_mem_homes there]

/-- Where the same is rejected, the same is accepted. -/
theorem places_homes_eq (rejected : RejectedAlike items others) :
    (homes items).map (fun home => home.1.place) =
      (homes others).map fun home => home.1.place := by
  have marked : ((Site.all items).filter fun site => site.outcome?.isSome).map Site.place =
      ((Site.all others).filter fun site => site.outcome?.isSome).map Site.place :=
    map_eq_of_forall₂ (List.rel_filter
      (fun _ _ alike => Bool.eq_iff_iff.mp (Site.marked_respelled alike))
      (Site.respelled_all same)) fun _ _ alike => alike.place
  have none : (rejections items).map (fun rejection => rejection.1.place) =
      (rejections others).map fun rejection => rejection.1.place :=
    map_eq_of_forall₂ rejected fun _ _ alike => alike.1
  have ordered (items : List Item) :
      ((homes items).map fun home => home.1.place).Pairwise (· < ·) := by
    have listed := ordered_homes items
    rw [Site.Ordered, List.pairwise_map] at listed
    exact List.pairwise_map.mpr listed
  refine (ordered items).eq_of_mem_iff (ordered others) fun place => ?_
  rw [(fates items).mem_places_iff, (fates others).mem_places_iff, marked, none]

/-- Two spellings come out alike if and only if the same is rejected, the types of all that is
accepted are looked up alike, and the store module has its name in both or in none. -/
theorem sameOutcome_iff : SameOutcome settings items others ↔ RejectedAlike items others ∧
    LookedUpAlike items others ∧ StoreLooksAlike settings items others := by
  constructor
  · intro outcome
    refine ⟨outcome.rejections, fun home here other there place => ?_,
      storeClash_same_iff.mp outcome.storeClash⟩
    have distinct : ((homes others).map fun home => home.1.place).Nodup := by
      have nodup := (ordered_homes others).nodup_place
      rwa [List.map_map] at nodup
    refine (home_respelled_iff same here there place).mp ?_
    exact (rel_of_key outcome.homes (fun _ _ alike => alike.1) distinct here there place).2
  · rintro ⟨rejected, looked, store⟩
    refine ⟨forall₂_of_map_eq (places_homes_eq same rejected) ?_, rejected,
      storeClash_same_iff.mpr store⟩
    intro home here other there place
    exact ⟨place, (home_respelled_iff same here there place).mpr
      (looked home here other there place)⟩

end Exact

section Judged

variable {specs : List Spec}
  (same : List.Forall₂ (Item.Respelled (Field.LooksAlike specs)) items others)

include same

theorem declared_respelled : List.Forall₂ (fun declared other =>
    declared.1.place = other.1.place ∧ Resolution.LooksAlike specs declared.2 other.2)
      (declared items) (declared others) := by
  refine List.rel_filterMap (fun site other here => ?_) (Site.respelled_all same)
  exact rel_map (Site.spec?_respelled here) fun _ _ alike => ⟨here.place, alike⟩

theorem unreadable_respelled : List.Forall₂ (fun rejection other =>
    rejection.1.place = other.1.place ∧ rejection.2.fault.Alike other.2.fault)
      (unreadable items) (unreadable others) := by
  refine List.rel_filterMap (fun site other here => ?_) (Site.respelled_all same)
  exact rel_map (Site.error?_respelled here) fun _ _ alike => ⟨here.place, alike⟩

theorem specs_respelled : List.Forall₂ (Resolution.LooksAlike specs) (Intake.ofItems [] items).specs
    (Intake.ofItems [] others).specs := by
  rw [← map_snd_declared, ← map_snd_declared]
  exact List.rel_map (fun _ _ here => here.2) (declared_respelled same)

end Judged

section Respelled

variable (same : List.Forall₂
  (Item.Respelled (Field.LooksAlike (Intake.ofItems [] items).specs)) items others)

include same

theorem judged_respelled : List.Forall₂ (fun judged other =>
    (judged.1.1.place = other.1.1.place ∧
        Resolution.LooksAlike (Intake.ofItems [] items).specs judged.1.2 other.1.2) ∧
      Resolution.VerdictAlike judged.2 other.2) (judged items) (judged others) :=
  forall₂_zip_of (declared_respelled same) (Resolution.verdicts_respelled (specs_respelled same))

theorem lookedUpAlike_of_looksAlike : LookedUpAlike items others := by
  intro home here other there place
  have specs := Site.spec?_respelled (site_respelled same here there place)
  rw [(of_mem_homes here).2, (of_mem_homes there).2] at specs
  cases specs with
  | some alike =>
    exact alike.fields.imp fun _ _ looks =>
      Resolution.readsAlike_table (specs_respelled same) looks

theorem unaccepted_respelled : List.Forall₂ (fun rejection other =>
    rejection.1.place = other.1.place ∧ rejection.2.fault.Alike other.2.fault)
      (unaccepted items) (unaccepted others) := by
  refine List.rel_filterMap ?_ (judged_respelled same)
  rintro ⟨⟨site, spec⟩, verdict⟩ ⟨⟨site', spec'⟩, verdict'⟩ ⟨⟨place, -⟩, alike⟩
  cases alike with
  | accepted => exact .none
  | rejected fault => exact .some ⟨place, fault⟩

theorem rejections_respelled : List.Forall₂ (fun rejection other =>
    rejection.1.place = other.1.place ∧
      (Diagnostic.spec rejection.2).kind = (Diagnostic.spec other.2).kind)
    (rejections items) (rejections others) := by
  have faults := List.rel_append (unreadable_respelled same) (unaccepted_respelled same)
  exact faults.imp fun _ _ here => ⟨here.1, kind_eq_of_alike here.2⟩

end Respelled

/-- Where a field is not called as the constructor in one spelling alone, and no type names a spec or
a container in one spelling alone, the outcome is the same if and only if an item is not called as the
store module in one spelling alone. Types of which this does not hold have different trees. -/
theorem respelling_same_outcome_iff (same : List.Forall₂
      (Item.Respelled (Field.LooksAlike (Intake.ofItems [] items).specs)) items others) :
    Fates items (homes items) (rejections items) ∧ Fates others (homes others) (rejections others) ∧
      (SameOutcome settings items others ↔ StoreLooksAlike settings items others) ∧
      ∀ (table : EntityTable) (a b : Ty), a.unraw = b.unraw →
        ((table.resolve a).unraw = (table.resolve b).unraw ↔ table.ReadsAlike table a b) := by
  refine ⟨fates items, fates others, ?_, fun table a b => EntityTable.resolve_unraw_eq_iff⟩
  rw [sameOutcome_iff same]
  exact ⟨fun outcome => outcome.2.2, fun store =>
    ⟨rejections_respelled same, lookedUpAlike_of_looksAlike same, store⟩⟩

end Round

theorem Ty.looksAlike_bare {specs : List Spec} {x y : Ident}
    (names : ∀ spec ∈ specs, (spec.typeName.text = x.text ↔ spec.typeName.text = y.text)) :
    LooksAlike specs (.path false [.bare x]) (.path false [.bare y]) := by
  refine ⟨?_, ?_⟩
  · rintro _ _ (_ | _ | _ | ⟨member, _⟩)
    · exact names
    · cases member
  · intro path path'
    generalize left : path.ty = found
    generalize right : path'.ty = found'
    rintro (_ | _ | _ | ⟨member, _⟩)
    · obtain rfl : path = ⟨false, [.bare x]⟩ := Path.ty_injective left
      intro container fits
      cases container <;> cases fits
    · cases member

/-! Notes that are written by users, and spellings of them. -/
namespace Notes

def signed (name : Ident) (ty : Ty) : List Item :=
  [spec "user" ⟨"UserSpec", false⟩ [field [idMark] "id" number],
    spec "note" ⟨"NoteSpec", false⟩ [field [idMark] "id" number, ⟨[], name, .none, ty, .none⟩]]

def bare (name : Ident) : Ty := .path false [.bare name]

theorem signed_respelled {R : Field → Field → Prop} {name name' : Ident} {ty ty' : Ty}
    (names : name.unraw = name'.unraw) (types : ty.unraw = ty'.unraw)
    (id : R (field [idMark] "id" number) (field [idMark] "id" number))
    (other : R ⟨[], name, .none, ty, .none⟩ ⟨[], name', .none, ty', .none⟩) :
    List.Forall₂ (Item.Respelled R) (signed name ty) (signed name' ty') := by
  refine .cons (.struct ⟨rfl, rfl, rfl, rfl, .named (.cons ⟨rfl, rfl, rfl⟩ .nil)⟩ fun _ => ?_) <|
    .cons (.struct ⟨rfl, rfl, rfl, rfl, .named (.cons ⟨rfl, rfl, rfl⟩
      (.cons ⟨rfl, names, types⟩ .nil))⟩ fun _ => ?_) .nil
  · exact .named (.cons id .nil)
  · exact .named (.cons id (.cons other .nil))

/-- The text of a note may be called by raw names. -/
theorem same_outcome_of_text :
    Round.SameOutcome {} (signed ⟨"text", false⟩ (bare ⟨"String", false⟩))
      (signed ⟨"text", true⟩ (bare ⟨"String", true⟩)) := by
  have respelled : List.Forall₂ (Item.Respelled (Field.LooksAlike
      (Intake.ofItems [] (signed ⟨"text", false⟩ (bare ⟨"String", false⟩))).specs))
      (signed ⟨"text", false⟩ (bare ⟨"String", false⟩))
      (signed ⟨"text", true⟩ (bare ⟨"String", true⟩)) := by
    refine signed_respelled rfl rfl ⟨⟨rfl, rfl, rfl⟩, Iff.rfl, ?_⟩ ⟨⟨rfl, rfl, rfl⟩, ?_, ?_⟩
    · exact Ty.looksAlike_bare fun _ _ => Iff.rfl
    · decide
    · exact Ty.looksAlike_bare (by decide +kernel)
  have same : Round.SameOutcome {} _ _ ↔ _ := (Round.respelling_same_outcome_iff respelled).2.2.1
  exact same.mpr (by unfold Round.StoreLooksAlike; decide +kernel)

def user (raw : Bool) : Ty := bare ⟨"User", raw⟩

def users (raw : Bool) : Ty := .path false [.mk ⟨"Vec", raw⟩ (.angle false [.ty (user false)] false)]

def called (name : Ident) : Item := .other (some (name, .none)) []

/-- A raw name is no entity, no container, no constructor and no store module, though it is the same
identifier as the name without the mark. -/
theorem raw_names_unknown :
    Round.SpellingMatters {} (signed ⟨"author", false⟩ (user false))
      (signed ⟨"author", false⟩ (user true)) ∧
    Round.SpellingMatters {} (signed ⟨"readers", false⟩ (users false))
      (signed ⟨"readers", false⟩ (users true)) ∧
    Round.SpellingMatters {} (signed ⟨"new", false⟩ number) (signed ⟨"new", true⟩ number) ∧
    Round.SpellingMatters {} [called ⟨"store", false⟩] [called ⟨"store", true⟩] := by
  have respelled {name name' : Ident} {ty ty' : Ty} (names : name.unraw = name'.unraw)
      (types : ty.unraw = ty'.unraw) : List.Forall₂ (Item.Respelled Field.Respelled)
        (signed name ty) (signed name' ty') :=
    signed_respelled names types ⟨rfl, rfl, rfl⟩ ⟨rfl, names, types⟩
  refine ⟨⟨respelled rfl rfl, fun outcome => ?_⟩, ⟨respelled rfl rfl, fun outcome => ?_⟩,
    ⟨respelled rfl rfl, fun outcome => ?_⟩, .cons (.other rfl) .nil, fun outcome => ?_⟩
  · exact absurd (Round.holding_eq_of_sameOutcome outcome) (by decide +kernel)
  · exact absurd (Round.holding_eq_of_sameOutcome outcome) (by decide +kernel)
  · exact absurd outcome.homes.length_eq (by decide +kernel)
  · exact absurd outcome.storeClash (by decide +kernel)

end Notes
end EntityGen
