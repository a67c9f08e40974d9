import EntityGen.Proofs.Resolve.RawNames
import EntityGen.Proofs.Spec.Acceptance
import EntityGen.Resolve.Resolution

/-! Structs that are spelled with and without raw names. They are judged alike, as specs of the same
entity or with faults of one kind, if no field is called as the constructor in one spelling alone. -/
namespace EntityGen

structure Field.Respelled (field other : Field) : Prop where
  attrs : field.attrs = other.attrs
  name : field.name.unraw = other.name.unraw
  ty : field.ty.unraw = other.ty.unraw

/-- At each place of two types the names that stand there are spelled as specs are or both are not,
and so are those of containers. -/
structure Ty.LooksAlike (specs : List Spec) (a b : Ty) : Prop where
  names : ∀ x y, a.Opposite b (.path false [.bare x]) (.path false [.bare y]) →
    ∀ spec ∈ specs, (spec.typeName.text = x.text ↔ spec.typeName.text = y.text)
  containers : ∀ path path' : Path, a.Opposite b path.ty path'.ty →
    ∀ container, path.typeArgs.length = container.arity →
      (path.Denotes container ↔ path'.Denotes container)

/-- A field in two spellings that are the same to whoever goes by how names are written. -/
structure Field.LooksAlike (specs : List Spec) (field other : Field) : Prop
    extends field.Respelled other where
  constructorName : field.name = ⟨"new", false⟩ ↔ other.name = ⟨"new", false⟩
  types : field.ty.LooksAlike specs other.ty

inductive Fields.Respelled (R : Field → Field → Prop) : Fields → Fields → Prop
  | named {fields others : List Field} (each : List.Forall₂ R fields others) :
    Respelled R (.named fields) (.named others)
  | other : Respelled R .other .other

/-- A struct in two spellings. Its code and all places are left open. -/
structure Struct.Respelled (R : Field → Field → Prop) (decl other : Struct) : Prop where
  attrs : decl.attrs = other.attrs
  name : decl.name.unraw = other.name.unraw
  generics : decl.generics.isSome = other.generics.isSome
  bounded : decl.bounded = other.bounded
  fields : decl.fields.Respelled R other.fields

structure SpecField.Respelled (field other : SpecField) : Prop where
  name : field.name.unraw = other.name.unraw
  ty : field.ty.unraw = other.ty.unraw
  isId : field.isId = other.isId

structure SpecField.LooksAlike (specs : List Spec) (field other : SpecField) : Prop
    extends field.Respelled other where
  types : field.ty.LooksAlike specs other.ty

/-- A spec in two spellings, with fields that are related by `R`. -/
structure Spec.Respelled (R : SpecField → SpecField → Prop) (spec other : Spec) : Prop where
  module : spec.module.map Ident.unraw = other.module.map Ident.unraw
  ident : spec.ident.unraw = other.ident.unraw
  name : spec.name = other.name
  typeName : spec.typeName = other.typeName
  fields : List.Forall₂ R spec.fields other.fields
  id : spec.id.val = other.id.val

inductive SpecFault.Alike : SpecFault → SpecFault → Prop
  | missingId : Alike .missingId .missingId
  | multipleIds (count : Nat) : Alike (.multipleIds count) (.multipleIds count)
  | invalid (defect other : SpecDefect) : Alike (.invalid defect) (.invalid other)

namespace Spec

/-- Two structs are specs of the same entity, or they are rejected for one kind of fault. -/
inductive JudgedAlike (R : SpecField → SpecField → Prop) :
    Except SpecError Spec → Except SpecError Spec → Prop
  | accepted {spec other : Spec} (same : spec.Respelled R other) :
    JudgedAlike R (.ok spec) (.ok other)
  | rejected {error other : SpecError} (same : error.fault.Alike other.fault) :
    JudgedAlike R (.error error) (.error other)

end Spec

section

variable {specs : List Spec} {field other : Field} {fields others : List Field}

theorem Field.Respelled.isMarked (same : field.Respelled other) :
    field.isMarked = other.isMarked := by
  rw [Field.isMarked, Field.isMarked, same.attrs]

theorem Field.LooksAlike.admitted_iff (same : field.LooksAlike specs other) :
    field.Admitted ↔ other.Admitted := by
  have hidden : field.ty.hidden? = none ↔ other.ty.hidden? = none := by
    rw [← Ty.hidden?_unraw field.ty, same.ty, Ty.hidden?_unraw]
  rw [Ty.hidden?_eq_none, Ty.hidden?_eq_none] at hidden
  constructor
  · rintro ⟨name, type, bare⟩
    exact ⟨mt same.constructorName.mpr name, hidden.mp type, same.attrs ▸ bare⟩
  · rintro ⟨name, type, bare⟩
    exact ⟨mt same.constructorName.mp name, hidden.mpr type, same.attrs ▸ bare⟩

theorem Field.Respelled.ofDeclared (same : field.Respelled other) :
    (SpecField.ofDeclared field).Respelled (SpecField.ofDeclared other) :=
  ⟨same.name, same.ty, same.isMarked⟩

theorem Field.LooksAlike.ofDeclared (same : field.LooksAlike specs other) :
    (SpecField.ofDeclared field).LooksAlike specs (SpecField.ofDeclared other) :=
  ⟨same.toRespelled.ofDeclared, same.types⟩

theorem forall_admitted_iff (each : List.Forall₂ (Field.LooksAlike specs) fields others) :
    (∀ field ∈ fields, field.Admitted) ↔ ∀ other ∈ others, other.Admitted := by
  induction each with
  | nil => exact Iff.rfl
  | cons first _ ih => rw [List.forall_mem_cons, List.forall_mem_cons, ih, first.admitted_iff]

end

namespace Struct.Respelled

variable {R : Field → Field → Prop} {specs : List Spec} {decl other : Struct} {names : SpecName}
  {fields others : List Field}

theorem exists_fields (same : decl.Respelled R other) (named : decl.fields = .named fields) :
    ∃ others, other.fields = .named others ∧ List.Forall₂ R fields others := by
  obtain ⟨-, -, -, -, each⟩ := same
  rw [named] at each
  generalize form : other.fields = found at each
  cases each with
  | named each => exact ⟨_, rfl, each⟩

theorem exists_fields_of_other (same : decl.Respelled R other) (named : other.fields = .named others) :
    ∃ fields, decl.fields = .named fields ∧ List.Forall₂ R fields others := by
  obtain ⟨-, -, -, -, each⟩ := same
  rw [named] at each
  generalize form : decl.fields = found at each
  cases each with
  | named each => exact ⟨_, rfl, each⟩

theorem countable_iff (same : decl.Respelled R other) (named : decl.fields = .named fields)
    (named' : other.fields = .named others)
    (each : List.Forall₂ (Field.LooksAlike specs) fields others) :
    decl.Countable names fields ↔ other.Countable names others := by
  have generics : decl.generics = none ↔ other.generics = none := by
    rw [← Option.not_isSome_iff_eq_none, ← Option.not_isSome_iff_eq_none, same.generics]
  constructor
  · rintro ⟨ofName, ⟨free, plain⟩, -, admitted⟩
    exact ⟨same.attrs ▸ ofName, ⟨generics.mp free, same.bounded ▸ plain⟩, named',
      (forall_admitted_iff each).mp admitted⟩
  · rintro ⟨ofName, ⟨free, plain⟩, -, admitted⟩
    exact ⟨same.attrs ▸ ofName, ⟨generics.mpr free, same.bounded ▸ plain⟩, named,
      (forall_admitted_iff each).mpr admitted⟩

end Struct.Respelled

namespace Spec

variable {S : Field → Field → Prop} {R : SpecField → SpecField → Prop} {specs : List Spec}
  {decl other : Struct} {names : SpecName} {path path' : ModulePath}

section

variable {fields others : List SpecField}
  (marked : ∀ field other, R field other → field.isId = other.isId)
  (each : List.Forall₂ R fields others)

include marked each

theorem countP_isId_eq : fields.countP SpecField.isId = others.countP SpecField.isId := by
  induction each with
  | nil => rfl
  | cons first _ ih => rw [List.countP_cons, List.countP_cons, ih, marked _ _ first]

/-- Fields in two spellings are counted alike, and the spec that they make has the same id. -/
theorem judgedAlike_ofFields (same : decl.Respelled S other)
    (around : path.map Ident.unraw = path'.map Ident.unraw) :
    JudgedAlike R (ofFields decl path names fields) (ofFields other path' names others) := by
  have counts := countP_isId_eq marked each
  obtain ⟨zero, left⟩ | ⟨several, left⟩ | ⟨one, id, only, left⟩ :=
    ofFields_cases decl path names fields <;>
  obtain ⟨zero', right⟩ | ⟨several', right⟩ | ⟨one', id', only', right⟩ :=
    ofFields_cases other path' names others
  -- The counts are the same, so that only like cases go together.
  any_goals omega
  · rw [left, right]
    exact .rejected .missingId
  · rw [left, right, counts]
    exact .rejected (.multipleIds _)
  · rw [left, right, ← same.attrs]
    cases Ident.ofText? (Naming.typeName names.name names.className) with
    | none => exact .rejected (.invalid _ _)
    | some typeName =>
      cases read : derivedTraits names.name decl.attrs with
      | error error =>
        obtain ⟨defect, fault⟩ := invalid_of_derivedTraits read
        exact .rejected (fault ▸ .invalid _ _)
      | ok derives =>
        refine .accepted ⟨around, same.name, rfl, rfl, each, ?_⟩
        have bound : id.val < others.length := each.length_eq ▸ id.isLt
        have here := (marked _ _ (each.get id.isLt bound)).symm.trans ((only id).mpr rfl)
        exact congrArg Fin.val ((only' ⟨id.val, bound⟩).mp here)

end

/-- A struct is judged as it is in another spelling. -/
theorem judgedAlike_ofStruct (same : decl.Respelled (Field.LooksAlike specs) other)
    (around : path.map Ident.unraw = path'.map Ident.unraw) :
    JudgedAlike (SpecField.LooksAlike specs) (ofStruct decl path) (ofStruct other path') := by
  obtain ⟨names, fields, countable, left⟩ | ⟨none, error, defect, left, fault⟩ :=
    ofStruct_cases decl path <;>
  obtain ⟨names', others, countable', right⟩ | ⟨none', error', defect', right, fault'⟩ :=
    ofStruct_cases other path'
  · obtain ⟨_, named, each⟩ := same.exists_fields countable.fields
    have counted := (same.countable_iff countable.fields named each).mp countable
    obtain ⟨rfl, rfl⟩ := counted.unique countable'
    rw [left, right]
    exact judgedAlike_ofFields (fun _ _ alike => alike.isId)
      (List.rel_map (fun _ _ alike => alike.ofDeclared) each) same around
  · obtain ⟨others, named, each⟩ := same.exists_fields countable.fields
    exact absurd ((same.countable_iff countable.fields named each).mp countable) (none' _ _)
  · obtain ⟨fields, named, each⟩ := same.exists_fields_of_other countable'.fields
    exact absurd ((same.countable_iff named countable'.fields each).mpr countable') (none _ _)
  · rw [left, right]
    exact .rejected (fault ▸ fault' ▸ .invalid _ _)

/-- A struct that is accepted in two spellings is a spec of the same entity. -/
theorem respelled_of_ofStruct {spec spec' : Spec} (same : decl.Respelled Field.Respelled other)
    (around : path.map Ident.unraw = path'.map Ident.unraw) (left : ofStruct decl path = .ok spec)
    (right : ofStruct other path' = .ok spec') : spec.Respelled SpecField.Respelled spec' := by
  obtain ⟨names, fields, countable, read⟩ | ⟨-, error, defect, failed, -⟩ :=
    ofStruct_cases decl path
  · obtain ⟨names', others, countable', read'⟩ | ⟨-, error, defect, failed, -⟩ :=
      ofStruct_cases other path'
    · obtain ⟨_, named, each⟩ := same.exists_fields countable.fields
      obtain rfl := Fields.named.inj (named.symm.trans countable'.fields)
      have counted : other.Countable names _ :=
        ⟨same.attrs ▸ countable.named, countable'.plain, named, countable'.admitted⟩
      obtain ⟨rfl, -⟩ := counted.unique countable'
      have judged :
          JudgedAlike SpecField.Respelled (ofStruct decl path) (ofStruct other path') := by
        rw [read, read']
        exact judgedAlike_ofFields (fun _ _ alike => alike.isId)
          (List.rel_map (fun _ _ alike => alike.ofDeclared) each) same around
      rw [left, right] at judged
      cases judged with
      | accepted alike => exact alike
    · cases right.symm.trans failed
  · cases left.symm.trans failed

end Spec
end EntityGen
