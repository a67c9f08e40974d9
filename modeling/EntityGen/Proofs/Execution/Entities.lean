import EntityGen.Proofs.Execution.Functions
import EntityGen.Proofs.Execution.Scopes
import Mathlib.Data.List.Nodup

/-! What the methods of an entity type give when they run: each property is read by the method of
its name, the id by the trait, and the constructor takes the properties in the order in which they
are declared. -/
namespace EntityGen

section Keys

variable {α β : Type} [BEq β] [LawfulBEq β] {list : List α} {key : α → β} {a : α}

/-- With keys that are all different, an element is the first one of its key. -/
theorem find?_of_nodup_keys (nodup : (list.map key).Nodup) (member : a ∈ list) :
    list.find? (fun other => key other == key a) = some a := by
  have isSome : (list.find? fun other => key other == key a).isSome :=
    List.find?_isSome.mpr ⟨a, member, beq_self_eq_true _⟩
  obtain ⟨other, found⟩ := Option.isSome_iff_exists.mp isSome
  have same := List.find?_some found
  rw [found, List.inj_on_of_nodup_map nodup (List.mem_of_find?_eq_some found) member
    (beq_iff_eq.mp same)]

theorem findIdx?_of_nodup_keys {i : Nat} (nodup : (list.map key).Nodup) (bound : i < list.length) :
    list.findIdx? (fun other => key other == key list[i]) = some i := by
  rw [List.findIdx?_eq_some_iff_getElem]
  refine ⟨bound, beq_self_eq_true _, fun j before same => ?_⟩
  have below : j < (list.map key).length := by simp only [List.length_map]; omega
  have within : i < (list.map key).length := by simpa only [List.length_map]
  have mapped : (list.map key)[j] = (list.map key)[i] := by simpa using same
  exact Nat.ne_of_lt before ((List.Nodup.getElem_inj_iff nodup).mp mapped)

end Keys

namespace Entity

/-- What the fields and methods of one type need: no two properties have one name, and none has
that of the constructor. Fields of a struct have different names, and a spec with a field of the
constructor's name is rejected. -/
def Distinct (entity : Entity) : Prop :=
  ("new" :: entity.properties.map fun property => property.name.name).Nodup

instance (entity : Entity) : Decidable entity.Distinct := inferInstanceAs (Decidable (List.Nodup _))

variable {entity : Entity} {σ : Type} {fields : List Value} {i : Nat}

theorem Distinct.nodup (distinct : entity.Distinct) :
    (entity.properties.map fun property => property.name.name).Nodup :=
  (List.nodup_cons.mp distinct).2

theorem fieldOf?_eq (distinct : entity.Distinct) (bound : i < entity.properties.length)
    (inside : i < fields.length) (type : ResolvedType) (iteration : Iteration) :
    entity.fieldOf? ⟨type, .seq fields, iteration⟩ entity.properties[i].name =
      some ⟨entity.properties[i].resolved, fields[i], iteration.property i⟩ := by
  have place := findIdx?_of_nodup_keys distinct.nodup bound
  simp [fieldOf?, place, bound, inside]

/-- The method of a property gives its value. -/
theorem run_getter (distinct : entity.Distinct)
    (bound : i < entity.properties.length) (inside : i < fields.length)
    (type : ResolvedType) (iteration : Iteration) :
    (getter entity.properties[i]).run (entity.machine σ)
        (some (.datum ⟨type, .seq fields, iteration⟩)) [] =
      pure (some (.datum ⟨entity.properties[i].resolved, fields[i], iteration.property i⟩)) := by
  refine Method.run_of_pure_returned rfl rfl ?_
  have self : Env.find? ((getter entity.properties[i]).scope
      (some (.datum ⟨type, .seq fields, iteration⟩)) []) "self" =
      some (.datum ⟨type, .seq fields, iteration⟩) := rfl
  simp [Body.exec, Stmt.exec, Expr.borrow, Expr.eval, Expr.self, Code.operand_self,
    Run.run_read self, machine, fieldOf?_eq distinct bound inside]

theorem id_lt (entity : Entity) : entity.spec.id.val < entity.properties.length := by
  rw [entity.length_properties]
  exact entity.spec.id.isLt

theorem idProperty_eq (bound : entity.spec.id.val < entity.properties.length) :
    entity.idProperty = entity.properties[entity.spec.id.val] := rfl

/-- The trait gives the value of the property that is the id. -/
theorem run_idMethod (distinct : entity.Distinct)
    (bound : entity.spec.id.val < entity.properties.length)
    (inside : entity.spec.id.val < fields.length) (type : ResolvedType)
    (iteration : Iteration) :
    entity.idMethod.run (entity.machine σ) (some (.datum ⟨type, .seq fields, iteration⟩)) [] =
      pure (some (.owned entity.idProperty.resolved fields[entity.spec.id.val])) := by
  refine Method.run_of_pure_returned rfl rfl ?_
  have self : Env.find? (entity.idMethod.scope
      (some (.datum ⟨type, .seq fields, iteration⟩)) []) "self" =
      some (.datum ⟨type, .seq fields, iteration⟩) := rfl
  simp [Body.exec, Stmt.exec, Expr.cloned, Expr.borrow, Expr.eval, Expr.evalAll, Expr.self,
    Code.operand_self, Run.run_read self, machine, idProperty_eq bound,
    fieldOf?_eq distinct bound inside]

section Construction

variable {parts : List (Operand × Value)}

/-- Operands that are given for properties, each with the value that it has there. -/
def Given : List Property → List (Operand × Value) → Prop :=
  List.Forall₂ fun property part => part.1.valueAs? property.resolved = some part.2

theorem mapM_given {properties : List Property} (values : List (Ident × Operand))
    (given : Given properties parts)
    (found : ∀ property part, (property, part) ∈ properties.zip parts →
      (values.find? fun value => value.1.name == property.name.name) =
        some (property.name, part.1)) :
    (properties.mapM fun property => do
      let value ← values.find? fun value => value.1.name == property.name.name
      value.2.valueAs? property.resolved) = some (parts.map Prod.snd) := by
  induction given with
  | nil => rfl
  | @cons property part _ _ first _ ih =>
    have here := found property part List.mem_cons_self
    have later := ih fun property part member => found property part (List.mem_cons_of_mem _ member)
    rw [List.mapM_cons, here, later]
    simp [first]

theorem make?_eq (distinct : entity.Distinct) (given : Given entity.properties parts) :
    entity.make? ((entity.properties.map Property.name).zip (parts.map Prod.fst)) =
      some (.owned (.entity entity.type) (.seq (parts.map Prod.snd))) := by
  set values := (entity.properties.map Property.name).zip (parts.map Prod.fst) with isZip
  have keys : (values.map fun value => value.1.name).Nodup := by
    have names : values.map Prod.fst = entity.properties.map Property.name :=
      List.map_fst_zip (by simp [given.length_eq])
    have nodup : ((values.map Prod.fst).map Ident.name).Nodup := by
      rw [names, List.map_map]
      exact distinct.nodup
    rwa [List.map_map] at nodup
  have fields := mapM_given values given fun property part member => by
    have inside : (property.name, part.1) ∈ values := by
      rw [isZip, List.zip_map]
      exact List.mem_map.mpr ⟨_, member, rfl⟩
    exact find?_of_nodup_keys keys inside
  have lengths : values.length = entity.properties.length := by simp [isZip, given.length_eq]
  rw [make?, if_pos lengths, fields]
  rfl

theorem run_constructor (distinct : entity.Distinct) (given : Given entity.properties parts) :
    entity.constructor.run (entity.machine σ) none (parts.map Prod.fst) =
      pure (some (.owned (.entity entity.type) (.seq (parts.map Prod.snd)))) := by
  refine Method.run_of_pure_returned rfl (by simp [constructor, given.length_eq]) ?_
  set env := entity.constructor.scope none (parts.map Prod.fst) with isScope
  have isZip : env = (entity.properties.map fun property => property.name.name).zip
      (parts.map Prod.fst) := by
    simp [isScope, Method.scope, constructor, Function.comp_def]
  have names : env.names.Nodup := by
    have same : env.names = entity.properties.map fun property => property.name.name := by
      rw [isZip]
      exact List.map_fst_zip (by simp [given.length_eq])
    rw [same]
    exact distinct.nodup
  have found : List.Forall₂ (fun (x : Ident) value => env.find? x.name = some value)
      (entity.properties.map Property.name) (parts.map Prod.fst) := by
    rw [List.forall₂_map_left_iff, List.forall₂_map_right_iff, List.forall₂_iff_zip]
    refine ⟨given.length_eq, fun {property part} member => Env.find?_of_mem names ?_⟩
    rw [isZip, List.zip_map]
    exact List.mem_map.mpr ⟨_, member, rfl⟩
  simp [Body.exec, Stmt.exec, Expr.eval, Run.run_mapM_read found, machine,
    make?_eq distinct given, -List.mapM_map]

end Construction

end Entity
end EntityGen
