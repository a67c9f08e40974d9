import EntityGen.Proofs.Spec.Acceptance
import EntityGen.Spec.Intake

/-! What is known of every spec that intake accepts, whatever module it stands in. -/
namespace EntityGen

/-- There is one field that is marked as the id. -/
def Spec.Marked (spec : Spec) : Prop := spec.fields.filter SpecField.isId = [spec.idField]

theorem filter_eq_singleton {α : Type} {p : α → Bool} {items : List α} {i : Nat}
    (bound : i < items.length) (here : p items[i]) (one : items.countP p = 1) :
    items.filter p = [items[i]] := by
  rw [List.countP_eq_length_filter] at one
  obtain ⟨only, same⟩ := List.length_eq_one_iff.mp one
  have member : items[i] ∈ items.filter p := List.mem_filter.mpr ⟨List.getElem_mem bound, here⟩
  rw [same] at member ⊢
  rw [List.mem_singleton.mp member]

namespace Spec

/-- Where the parts of an accepted spec come from. -/
theorem of_ofStruct {decl : Struct} {module : ModulePath} {spec : Spec}
    (accepted : ofStruct decl module = .ok spec) : spec.Marked ∧ spec.module = module ∧
      spec.ident = decl.name ∧ spec.attrs = decl.attrs.filter Attribute.isCarried ∧
      (∃ text, Ident.ofText? text = some spec.typeName) ∧
      ∃ declared, decl.fields = .named declared ∧
        spec.fields.map SpecField.name = declared.map Field.name := by
  obtain ⟨names, declared, countable, one, made⟩ := ofStruct_eq_ok.mp accepted
  have counted : spec.fields.countP SpecField.isId = 1 := by
    rw [made.fields, SpecField.countP_map_ofDeclared, one]
  refine ⟨filter_eq_singleton spec.id.isLt ((made.id spec.id).mpr rfl) counted, made.head.1,
    made.head.2.1, made.attrs, ⟨_, Ident.ofText?_eq_some.mpr made.typeName⟩, declared,
    countable.fields, ?_⟩
  rw [made.fields, List.map_map]
  rfl

end Spec

namespace Intake

variable {path : ModulePath}

@[simp] theorem specs_append (a b : Intake) : (a ++ b).specs = a.specs ++ b.specs := rfl

@[simp] theorem errors_append (a b : Intake) : (a ++ b).errors = a.errors ++ b.errors := rfl

mutual

def structsOfItem (path : ModulePath) : Item → List (ModulePath × Struct)
  | .struct decl => if decl.attrs.any Attribute.isSpec then [(path, decl)] else []
  | .module head (some items) => structsOfItems (path ++ [head.name]) items
  | .enum _ | .module _ none | .other _ _ => []

def structsOfItems (path : ModulePath) : List Item → List (ModulePath × Struct)
  | [] => []
  | item :: rest => structsOfItem path item ++ structsOfItems path rest

end

mutual

/-- Each spec of an item is read from a marked struct. -/
theorem exists_struct_of_mem_ofItem : (path : ModulePath) → (item : Item) →
    ∀ spec ∈ (ofItem path item).specs,
      ∃ declared ∈ structsOfItem path item, Spec.ofStruct declared.2 declared.1 = .ok spec
  | path, .struct decl, spec, member => by
    rw [ofItem, ofStruct] at member
    split at member
    next => cases member
    next marked =>
      split at member
      next accepted =>
        obtain rfl := List.mem_singleton.mp member
        refine ⟨(path, decl), ?_, accepted⟩
        rw [structsOfItem, if_pos (by simpa using marked)]
        exact List.mem_singleton_self _
      next => cases member
  | path, .enum decl, spec, member => by
    rw [ofItem, ofEnum] at member
    split at member <;> cases member
  | _, .module _ none, _, member => nomatch member
  | path, .module head (some items), spec, member =>
    exists_struct_of_mem_ofItems (path ++ [head.name]) items spec member
  | _, .other _ _, _, member => nomatch member

theorem exists_struct_of_mem_ofItems : (path : ModulePath) → (items : List Item) →
    ∀ spec ∈ (ofItems path items).specs,
      ∃ declared ∈ structsOfItems path items, Spec.ofStruct declared.2 declared.1 = .ok spec
  | _, [], _, member => nomatch member
  | path, item :: rest, spec, member => by
    rw [ofItems, specs_append] at member
    rw [structsOfItems]
    rcases List.mem_append.mp member with here | later
    · obtain ⟨declared, inside, accepted⟩ := exists_struct_of_mem_ofItem path item spec here
      exact ⟨declared, List.mem_append_left _ inside, accepted⟩
    · obtain ⟨declared, inside, accepted⟩ := exists_struct_of_mem_ofItems path rest spec later
      exact ⟨declared, List.mem_append_right _ inside, accepted⟩

end

/-- Every spec that intake accepts has one marked field. -/
theorem marked {items : List Item} {spec : Spec} (member : spec ∈ (ofItems path items).specs) :
    spec.Marked := by
  obtain ⟨_, -, accepted⟩ := exists_struct_of_mem_ofItems path items spec member
  exact (Spec.of_ofStruct accepted).1

end Intake
end EntityGen
