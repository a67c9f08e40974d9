import EntityGen.Proofs.Spec.Arguments
import EntityGen.Proofs.Spec.Hidden
import EntityGen.Proofs.Token.Words
import EntityGen.Spec.Basic

/-! Which structs are specs. The conditions on a struct are stated apart from the order in which
they are judged. One that meets those on its name, its form and its fields is told if too few or too
many of its fields are marked, and is a spec if its type name and its derived traits can be read. -/
namespace EntityGen
open Scan

def Field.isMarked (field : Field) : Bool := field.attrs.any Attribute.isId

def SpecField.ofDeclared (field : Field) : SpecField :=
  ⟨field.name, field.ty, field.attrs.filter Attribute.isCarried, field.isMarked⟩

structure Field.Admitted (field : Field) : Prop where
  name : field.name ≠ ⟨"new", false⟩
  type : ∀ part : Ty, part.StandsIn field.ty → part.form? = none
  bare : ∀ attr ∈ field.attrs, attr.isId → attr.args = .none

def Attribute.Lists (attr : Attribute) (paths : List Path) : Prop :=
  ∃ d content after, attr.args = .list d content ∧
    Listing ',' (Scan.Reads (Rules.path (Rules.nested (4 * content.length + 16)) false))
      ⟨content, []⟩ paths after

namespace Struct

/-- What is asked of a struct before its marked fields are counted. -/
structure Countable (decl : Struct) (names : SpecName) (declared : List Field) : Prop where
  named : SpecName.Of decl.attrs names
  plain : decl.generics = none ∧ decl.bounded = false
  fields : decl.fields = .named declared
  admitted : ∀ field ∈ declared, field.Admitted

/-- A struct that is a spec. -/
def Acceptable (decl : Struct) : Prop :=
  ∃ names declared, decl.Countable names declared ∧ declared.countP Field.isMarked = 1 ∧
    (∃ x : Ident, x.Fills (Naming.typeName names.name names.className)) ∧
    ∀ attr ∈ decl.attrs, attr.isDerive → ∃ paths, attr.Lists paths

end Struct

namespace SpecField

theorem readMarks_eq_ok {spec : String} {attrs : List Attribute} {isId : Bool} :
    readMarks spec attrs = .ok isId ↔
      (∀ attr ∈ attrs, attr.isId → attr.args = .none) ∧ isId = attrs.any Attribute.isId := by
  induction attrs generalizing isId with
  | nil => exact ⟨fun done => ⟨nofun, (Except.ok.inj done).symm⟩, fun ⟨_, same⟩ => same ▸ rfl⟩
  | cons attr rest ih =>
    rw [readMarks, List.forall_mem_cons, List.any_cons]
    cases marked : attr.isId with
    | false => simp [ih]
    | true =>
      by_cases bare : attr.args = .none
      · rw [if_neg (by simp), if_pos (by simp [bare])]
        constructor
        · intro done
          cases read : readMarks spec rest with
          | error => rw [read] at done; cases done
          | ok => 
            rw [read] at done
            exact ⟨⟨fun _ => bare, (ih.mp read).1⟩, (Except.ok.inj done).symm⟩
        · rintro ⟨⟨-, later⟩, rfl⟩
          rw [ih.mpr ⟨later, rfl⟩]
          rfl
      · simp [bare]

theorem invalid_of_readMarks {spec : String} {attrs : List Attribute} {error : SpecError}
    (failed : readMarks spec attrs = .error error) : ∃ defect, error.fault = .invalid defect := by
  induction attrs with
  | nil => cases failed
  | cons attr rest ih =>
    rw [readMarks] at failed
    split at failed
    next => exact ih failed
    next =>
      split at failed
      next =>
        cases read : readMarks spec rest with
        | error =>
          rw [read] at failed
          exact ih (read.trans failed)
        | ok => rw [read] at failed; cases failed
      next =>
        obtain rfl := Except.error.inj failed
        exact ⟨_, rfl⟩

/-- A field is judged by its name, its type and its marks. -/
theorem ofField_eq (spec : String) (field : Field) : ofField spec field =
    if field.name = ⟨"new", false⟩ then
      .error ⟨spec, .invalid .constructorField, field.namePos⟩
    else match field.ty.hidden? with
      | some form => .error ⟨spec, .invalid (.hiddenField field.name form), field.tyPos⟩
      | none => (readMarks spec field.attrs).map fun isId =>
        ⟨field.name, field.ty, field.attrs.filter Attribute.isCarried, isId⟩ := by
  unfold ofField
  by_cases taken : field.name = ⟨"new", false⟩
  · rw [if_pos taken, if_pos (by simp [taken])]
    rfl
  · rw [if_neg taken, if_neg (by simpa using taken)]
    cases field.ty.hidden? with
    | some => rfl
    | none => cases readMarks spec field.attrs <;> rfl

theorem ofField_eq_ok {spec : String} {field : Field} {accepted : SpecField} :
    ofField spec field = .ok accepted ↔ field.Admitted ∧ accepted = ofDeclared field := by
  rw [ofField_eq]
  constructor
  · intro done
    split at done
    next => cases done
    next name =>
      split at done
      next => cases done
      next free =>
        cases read : readMarks spec field.attrs with
        | error => rw [read] at done; cases done
        | ok =>
          rw [read] at done
          obtain ⟨bare, rfl⟩ := readMarks_eq_ok.mp read
          exact ⟨⟨name, Ty.hidden?_eq_none.mp free, bare⟩, (Except.ok.inj done).symm⟩
  · rintro ⟨admitted, rfl⟩
    rw [if_neg admitted.name, Ty.hidden?_eq_none.mpr admitted.type,
      readMarks_eq_ok.mpr ⟨admitted.bare, rfl⟩]
    rfl

theorem mapM_ofField_eq_ok {spec : String} {declared : List Field} {fields : List SpecField} :
    declared.mapM (ofField spec) = .ok fields ↔
      (∀ field ∈ declared, field.Admitted) ∧ fields = declared.map ofDeclared :=
  mapM_eq_ok_iff fun _ _ => ofField_eq_ok

@[simp] theorem countP_map_ofDeclared (declared : List Field) :
    (declared.map ofDeclared).countP isId = declared.countP Field.isMarked := by
  rw [List.countP_map]
  rfl

theorem invalid_of_ofField {spec : String} {field : Field} {error : SpecError}
    (failed : ofField spec field = .error error) : ∃ defect, error.fault = .invalid defect := by
  rw [ofField_eq] at failed
  split at failed
  next => exact Except.error.inj failed ▸ ⟨_, rfl⟩
  next =>
    split at failed
    next => exact Except.error.inj failed ▸ ⟨_, rfl⟩
    next =>
      cases read : readMarks spec field.attrs with
      | error =>
        rw [read] at failed
        obtain rfl := Except.error.inj failed
        exact invalid_of_readMarks read
      | ok => rw [read] at failed; cases failed

end SpecField

theorem Attribute.readArgs_derivedPaths {attr : Attribute} {paths : List Path} :
    attr.readArgs derivedPaths = .ok paths ↔ attr.Lists paths := by
  unfold readArgs Lists
  cases args : attr.args with
  | list d content =>
    dsimp only
    rw [readAll_eq_ok]
    simp only [derivedPaths, reads_listed (show ",".toList = [','] from rfl)]
    constructor
    · rintro ⟨after, listing, -⟩
      exact ⟨d, content, after, rfl, listing⟩
    · rintro ⟨_, _, after, same, listing⟩
      cases same
      exact ⟨after, listing, listing.finished⟩
  | none => simp
  | value => simp

theorem derivedTraits_eq_ok {spec : String} {attrs : List Attribute} {derives : List Path} :
    derivedTraits spec attrs = .ok derives ↔
      ∃ lists, List.Forall₂ Attribute.Lists (attrs.filter Attribute.isDerive) lists ∧
        derives = lists.flatten := by
  induction attrs generalizing derives with
  | nil => 
    constructor
    · intro done
      exact ⟨[], .nil, (Except.ok.inj done).symm⟩
    · rintro ⟨lists, each, rfl⟩
      rw [List.forall₂_nil_left_iff.mp each]
      rfl
  | cons attr rest ih =>
    rw [derivedTraits]
    cases derive : attr.isDerive with
    | false => rw [if_neg (by simp), List.filter_cons_of_neg (by simp [derive]), ih]
    | true =>
      rw [if_pos rfl, List.filter_cons_of_pos derive]
      constructor
      · intro done
        obtain ⟨paths, read, done⟩ := ok_of_bind done
        obtain ⟨others, later, done⟩ := ok_of_bind done
        obtain rfl := Except.ok.inj done
        obtain ⟨lists, each, rfl⟩ := ih.mp later
        exact ⟨paths :: lists, .cons (Attribute.readArgs_derivedPaths.mp (ok_of_mapError read)) each,
          rfl⟩
      · rintro ⟨_, both, rfl⟩
        obtain ⟨paths, lists, first, each, rfl⟩ := List.forall₂_cons_left_iff.mp both
        rw [Attribute.readArgs_derivedPaths.mpr first]
        show (do return _ ++ (← derivedTraits spec rest)) = Except.ok _
        rw [ih.mpr ⟨_, each, rfl⟩]
        rfl

theorem invalid_of_derivedTraits {spec : String} {attrs : List Attribute} {error : SpecError}
    (failed : derivedTraits spec attrs = .error error) :
    ∃ defect, error.fault = .invalid defect := by
  induction attrs with
  | nil => cases failed
  | cons attr rest ih =>
    rw [derivedTraits] at failed
    split at failed
    next =>
      rcases error_of_bind failed with failed | ⟨paths, -, failed⟩
      · cases read : attr.readArgs derivedPaths with
        | error =>
          rw [read] at failed
          exact Except.error.inj failed ▸ ⟨_, rfl⟩
        | ok => rw [read] at failed; cases failed
      · rcases error_of_bind failed with failed | ⟨others, -, failed⟩
        · exact ih failed
        · cases failed
    next => exact ih failed

/-- All lists of derived traits are read if and only if each of them is. -/
theorem exists_derivedTraits (spec : String) {attrs : List Attribute} :
    (∃ derives, derivedTraits spec attrs = .ok derives) ↔
      ∀ attr ∈ attrs, attr.isDerive → ∃ paths, attr.Lists paths := by
  have each : (∃ lists, List.Forall₂ Attribute.Lists (attrs.filter Attribute.isDerive) lists) ↔ _ :=
    exists_forall₂_iff
  simp only [List.mem_filter, and_imp] at each
  simp only [← each, derivedTraits_eq_ok]
  exact ⟨fun ⟨_, lists, each, _⟩ => ⟨lists, each⟩, fun ⟨lists, each⟩ => ⟨_, lists, each, rfl⟩⟩

/-- Where one element of a list is found, it is found at one place. -/
theorem eq_of_countP_eq_one {α : Type} {p : α → Bool} {items : List α} (one : items.countP p = 1)
    {i j : Nat} (hi : i < items.length) (hj : j < items.length) (first : p items[i])
    (second : p items[j]) : i = j := by
  induction items generalizing i j with
  | nil => cases hi
  | cons a rest ih =>
    have none (here : p a) {k : Nat} (hk : k < rest.length) : p rest[k] = false := by
      rw [List.countP_cons_of_pos here, Nat.succ_inj, List.countP_eq_zero] at one
      simpa using one _ (List.getElem_mem hk)
    match i, j with
    | 0, 0 => rfl
    | 0, j + 1 => exact absurd second (by simp [none first (Nat.lt_of_succ_lt_succ hj)])
    | i + 1, 0 => exact absurd first (by simp [none second (Nat.lt_of_succ_lt_succ hi)])
    | i + 1, j + 1 =>
      have free : ¬ p a := fun here => by
        rw [List.getElem_cons_succ, none here (Nat.lt_of_succ_lt_succ hi)] at first
        cases first
      rw [List.countP_cons_of_neg free] at one
      exact congrArg (· + 1)
        (ih one (Nat.lt_of_succ_lt_succ hi) (Nat.lt_of_succ_lt_succ hj) first second)

namespace Struct.Countable

variable {decl : Struct} {names others : SpecName} {declared fields : List Field}

/-- The names and fields of a struct are its own. -/
theorem unique (first : decl.Countable names declared)
    (second : decl.Countable others fields) : names = others ∧ declared = fields := by
  have same : SpecName.ofAttributes decl.attrs "" = .ok names :=
    SpecName.ofAttributes_eq_ok.mpr first.named
  exact ⟨Except.ok.inj (same.symm.trans (SpecName.ofAttributes_eq_ok.mpr second.named)),
    Fields.named.inj (first.fields.symm.trans second.fields)⟩

theorem exists_iff {P : SpecName → List Field → Prop} (countable : decl.Countable names declared) :
    (∃ names declared, decl.Countable names declared ∧ P names declared) ↔ P names declared := by
  refine ⟨?_, fun holds => ⟨names, declared, countable, holds⟩⟩
  rintro ⟨others, fields, also, holds⟩
  obtain ⟨rfl, rfl⟩ := countable.unique also
  exact holds

end Struct.Countable

namespace Spec

/-- The spec is what a struct with these names and fields declares. -/
structure DeclaredBy (spec : Spec) (module : ModulePath) (decl : Struct) (names : SpecName)
    (declared : List Field) : Prop where
  fields : spec.fields = declared.map SpecField.ofDeclared
  id : ∀ i : Fin spec.fields.length, spec.fields[i].isId ↔ i = spec.id
  typeName : spec.typeName.Fills (Naming.typeName names.name names.className)
  derives : ∃ lists, List.Forall₂ Attribute.Lists (decl.attrs.filter Attribute.isDerive) lists ∧
    spec.derives = lists.flatten
  attrs : spec.attrs = decl.attrs.filter Attribute.isCarried
  head : spec.module = module ∧ spec.ident = decl.name ∧ spec.name = names.name ∧
    spec.vis = decl.vis ∧ spec.pos = decl.namePos

variable {decl : Struct} {module : ModulePath} {names : SpecName} {fields : List SpecField}

theorem findFinIdx?_eq_none : fields.findFinIdx? SpecField.isId = none ↔
    fields.countP SpecField.isId = 0 := by
  rw [List.findFinIdx?_eq_none_iff, List.countP_eq_zero]

/-- The marked fields are counted, and if there is one, the type name and the traits decide. -/
theorem ofFields_cases (decl : Struct) (module : ModulePath) (names : SpecName)
    (fields : List SpecField) :
    (fields.countP SpecField.isId = 0 ∧
      ofFields decl module names fields = .error ⟨names.name, .missingId, decl.namePos⟩) ∨
    (2 ≤ fields.countP SpecField.isId ∧ ofFields decl module names fields = .error
      ⟨names.name, .multipleIds (fields.countP SpecField.isId), decl.namePos⟩) ∨
    fields.countP SpecField.isId = 1 ∧ ∃ id : Fin fields.length,
      (∀ i : Fin fields.length, fields[i].isId ↔ i = id) ∧
        ofFields decl module names fields =
          match Ident.ofText? (Naming.typeName names.name names.className) with
          | none => .error ⟨names.name, .invalid
              (.typeName (Naming.typeName names.name names.className)), decl.namePos⟩
          | some typeName => (derivedTraits names.name decl.attrs).map fun derives => {
              module, ident := decl.name, name := names.name, typeName, vis := decl.vis, fields, id
              derives, attrs := decl.attrs.filter Attribute.isCarried, pos := decl.namePos } := by
  unfold ofFields
  cases found : fields.findFinIdx? SpecField.isId with
  | none => exact .inl ⟨findFinIdx?_eq_none.mp found, rfl⟩
  | some id =>
    have some : fields.countP SpecField.isId ≠ 0 := fun none => by
      rw [findFinIdx?_eq_none.mpr none] at found
      cases found
    by_cases one : fields.countP SpecField.isId = 1
    · have marked : fields[id].isId := (List.findFinIdx?_eq_some_iff.mp found).1
      refine .inr (.inr ⟨one, id, fun i => ⟨fun here => ?_, fun same => same ▸ marked⟩, ?_⟩)
      · exact Fin.ext (eq_of_countP_eq_one one i.isLt id.isLt here marked)
      · dsimp only
        rw [if_neg (by simp [one])]
        cases Ident.ofText? (Naming.typeName names.name names.className) with
        | none => rfl
        | some =>
          dsimp only
          cases derivedTraits names.name decl.attrs <;> rfl
    · refine .inr (.inl ⟨by omega, ?_⟩)
      dsimp only
      rw [if_pos (by simpa using one)]
      rfl

variable {declared : List Field}

theorem ofFields_eq_ok {spec : Spec} :
    ofFields decl module names (declared.map SpecField.ofDeclared) = .ok spec ↔
      declared.countP Field.isMarked = 1 ∧ spec.DeclaredBy module decl names declared := by
  obtain ⟨zero, same⟩ | ⟨several, same⟩ | ⟨one, id, only, same⟩ :=
    ofFields_cases decl module names (declared.map SpecField.ofDeclared)
  all_goals rw [SpecField.countP_map_ofDeclared] at *
  · simp [same, zero]
  · simp [same, show declared.countP Field.isMarked ≠ 1 by omega]
  rw [same]
  constructor
  · intro done
    split at done
    next => cases done
    next typeName named =>
      cases derived : derivedTraits names.name decl.attrs with
      | error => rw [derived] at done; cases done
      | ok derives =>
        rw [derived] at done
        obtain rfl := Except.ok.inj done
        exact ⟨one, rfl, only, Ident.ofText?_eq_some.mp named, derivedTraits_eq_ok.mp derived, rfl,
          rfl, rfl, rfl, rfl, rfl⟩
  · rintro ⟨-, fields, marked, named, derived, attrs, head⟩
    obtain ⟨_, _, _, _, _, _, own, _, _, _⟩ := spec
    obtain rfl := fields
    obtain rfl := attrs
    obtain ⟨rfl, rfl, rfl, rfl, rfl⟩ := head
    rw [Ident.ofText?_eq_some.mpr named, derivedTraits_eq_ok.mpr derived]
    obtain rfl : id = own := (marked id).mp ((only id).mpr rfl)
    rfl

theorem exists_ofFields_eq_ok :
    (∃ spec, ofFields decl module names (declared.map SpecField.ofDeclared) = .ok spec) ↔
      declared.countP Field.isMarked = 1 ∧
        (∃ x : Ident, x.Fills (Naming.typeName names.name names.className)) ∧
        ∀ attr ∈ decl.attrs, attr.isDerive → ∃ paths, attr.Lists paths := by
  obtain ⟨zero, same⟩ | ⟨several, same⟩ | ⟨one, id, -, same⟩ :=
    ofFields_cases decl module names (declared.map SpecField.ofDeclared)
  all_goals rw [SpecField.countP_map_ofDeclared] at *
  · simp [same, zero]
  · simp [same, show declared.countP Field.isMarked ≠ 1 by omega]
  · simp only [same, one, true_and, ← exists_derivedTraits names.name, ← Ident.ofText?_eq_some]
    cases Ident.ofText? (Naming.typeName names.name names.className) with
    | none => simp
    | some => cases derivedTraits names.name decl.attrs <;> simp [Except.map]

/-- Unless the spec is invalid, a fault is one of too few or too many marked fields. -/
theorem exists_ofFields_eq_error {fault : SpecFault} (valid : ∀ defect, fault ≠ .invalid defect) :
    (∃ error, ofFields decl module names (declared.map SpecField.ofDeclared) = .error error ∧
      error.fault = fault) ↔
        (declared.countP Field.isMarked = 0 ∧ fault = .missingId) ∨
          (2 ≤ declared.countP Field.isMarked ∧
            fault = .multipleIds (declared.countP Field.isMarked)) := by
  obtain ⟨zero, same⟩ | ⟨several, same⟩ | ⟨one, id, -, same⟩ :=
    ofFields_cases decl module names (declared.map SpecField.ofDeclared)
  all_goals rw [SpecField.countP_map_ofDeclared] at *
  · simp [same, zero, eq_comm]
  · simp [same, several, show declared.countP Field.isMarked ≠ 0 by omega, eq_comm]
  · simp only [same, one]
    refine ⟨?_, by simp⟩
    rintro ⟨error, failed, rfl⟩
    split at failed
    next =>
      obtain rfl := Except.error.inj failed
      exact absurd rfl (valid _)
    next =>
      cases derived : derivedTraits names.name decl.attrs with
      | error =>
        rw [derived] at failed
        obtain rfl := Except.error.inj failed
        obtain ⟨defect, invalid⟩ := invalid_of_derivedTraits derived
        exact absurd invalid (valid defect)
      | ok => rw [derived] at failed; cases failed

/-- A struct that can be counted is judged by its marked fields, and any other is invalid. -/
theorem ofStruct_cases (decl : Struct) (module : ModulePath) :
    (∃ names declared, decl.Countable names declared ∧
      ofStruct decl module = ofFields decl module names (declared.map SpecField.ofDeclared)) ∨
    (∀ names declared, ¬ decl.Countable names declared) ∧
      ∃ error defect, ofStruct decl module = .error error ∧ error.fault = .invalid defect := by
  have judged : ofStruct decl module =
      (SpecName.ofAttributes decl.attrs decl.name.text).bind fun names =>
        if decl.generics.isSome || decl.bounded then
          .error ⟨names.name, .invalid .generic, decl.generics.getD .none⟩
        else match decl.fields with
          | .named declared => (declared.mapM (SpecField.ofField names.name)).bind fun fields =>
              ofFields decl module names fields
          | .other => .error ⟨names.name, .invalid .unnamedFields, decl.namePos⟩ := by
    unfold ofStruct
    cases SpecName.ofAttributes decl.attrs decl.name.text with
    | error => rfl
    | ok names =>
      show (if _ then _ else _) = (if _ then _ else _)
      split
      next => rfl
      next => cases decl.fields <;> rfl
  rw [judged]
  cases named : SpecName.ofAttributes decl.attrs decl.name.text with
  | error error =>
    refine .inr ⟨fun names declared countable => ?_, error, ?_⟩
    · rw [SpecName.ofAttributes_eq_ok.mpr countable.named] at named
      cases named
    · obtain ⟨defect, fault⟩ := SpecName.invalid_of_ofAttributes named
      exact ⟨defect, rfl, fault⟩
  | ok names =>
    by_cases generic : decl.generics.isSome || decl.bounded
    · refine .inr ⟨fun _ _ countable => ?_, ?_⟩
      · simp [countable.plain] at generic
      · simp only [Except.bind, if_pos generic]
        exact ⟨_, _, rfl, rfl⟩
    · simp only [Except.bind, if_neg generic]
      cases form : decl.fields with
      | other =>
        refine .inr ⟨fun _ _ countable => ?_, _, _, rfl, rfl⟩
        cases form.symm.trans countable.fields
      | named declared =>
        dsimp only
        cases read : declared.mapM (SpecField.ofField names.name) with
        | error error =>
          refine .inr ⟨fun _ others countable => ?_, error, ?_⟩
          · cases form.symm.trans countable.fields
            cases read.symm.trans (SpecField.mapM_ofField_eq_ok.mpr ⟨countable.admitted, rfl⟩)
          · obtain ⟨field, -, failed⟩ := exists_error_of_mapM read
            obtain ⟨defect, fault⟩ := SpecField.invalid_of_ofField failed
            exact ⟨defect, rfl, fault⟩
        | ok fields =>
          obtain ⟨admitted, rfl⟩ := SpecField.mapM_ofField_eq_ok.mp read
          refine .inl ⟨names, declared, ⟨?_, ?_, form, admitted⟩, rfl⟩
          · exact SpecName.ofAttributes_eq_ok.mp named
          · simpa using generic

/-- A struct is accepted as what it declares. -/
theorem ofStruct_eq_ok {spec : Spec} : ofStruct decl module = .ok spec ↔
    ∃ names declared, decl.Countable names declared ∧ declared.countP Field.isMarked = 1 ∧
      spec.DeclaredBy module decl names declared := by
  obtain ⟨names, declared, countable, same⟩ | ⟨none, error, defect, failed, -⟩ :=
    ofStruct_cases decl module
  · rw [same, ofFields_eq_ok, countable.exists_iff]
  · simp [failed, none]

theorem exists_ofStruct_eq_error {fault : SpecFault} (valid : ∀ defect, fault ≠ .invalid defect) :
    (∃ error, ofStruct decl module = .error error ∧ error.fault = fault) ↔
      ∃ names declared, decl.Countable names declared ∧
        ((declared.countP Field.isMarked = 0 ∧ fault = .missingId) ∨
          (2 ≤ declared.countP Field.isMarked ∧
            fault = .multipleIds (declared.countP Field.isMarked))) := by
  obtain ⟨names, declared, countable, same⟩ | ⟨none, error, defect, failed, invalid⟩ :=
    ofStruct_cases decl module
  · rw [same, exists_ofFields_eq_error valid, countable.exists_iff]
  · simp only [failed, none]
    simp [invalid, (valid defect).symm]

/-- A struct is a spec if and only if it is acceptable, and then it is the one that it declares. It
is told that no field is marked, or how many are, if and only if all that is judged before holds. -/
theorem ofStruct_outcome (decl : Struct) (module : ModulePath) :
    ((∃ spec, ofStruct decl module = .ok spec) ↔ decl.Acceptable) ∧
    ((∃ error, ofStruct decl module = .error error ∧ error.fault = .missingId) ↔
      ∃ names declared, decl.Countable names declared ∧
        declared.countP Field.isMarked = 0) ∧
    (∀ count, (∃ error, ofStruct decl module = .error error ∧ error.fault = .multipleIds count) ↔
      ∃ names declared, decl.Countable names declared ∧
        declared.countP Field.isMarked = count ∧ 2 ≤ count) ∧
    ∀ spec, ofStruct decl module = .ok spec ↔
      ∃ names declared, decl.Countable names declared ∧ declared.countP Field.isMarked = 1 ∧
        spec.DeclaredBy module decl names declared := by
  refine ⟨?_, ?_, fun count => ?_, fun spec => ofStruct_eq_ok⟩
  · unfold Struct.Acceptable
    obtain ⟨names, declared, countable, same⟩ | ⟨none, error, defect, failed, -⟩ :=
      ofStruct_cases decl module
    · simp only [same, exists_ofFields_eq_ok, countable.exists_iff]
    · simp [failed, none]
  · simp [exists_ofStruct_eq_error]
  · have valid (defect : SpecDefect) : SpecFault.multipleIds count ≠ .invalid defect := nofun
    rw [exists_ofStruct_eq_error valid]
    refine exists_congr fun names => exists_congr fun declared => and_congr_right fun _ => ?_
    simp only [SpecFault.multipleIds.injEq, reduceCtorEq, and_false, false_or]
    grind

end Spec

end EntityGen
