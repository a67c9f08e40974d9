import EntityGen.Proofs.Generated.StoreSide

/-! The members of the types of the store module. No type has two methods of one name or two fields
of one name, if the entities do not share the names of their methods. -/
namespace EntityGen

open Generated

theorem filter_key_eq_singleton {α β : Type} [DecidableEq β] {key : α → β} {items : List α} {a : α}
    (distinct : (items.map key).Nodup) (member : a ∈ items) :
    items.filter (fun b => key b == key a) = [a] := by
  induction items with
  | nil => cases member
  | cons first rest ih =>
    obtain ⟨absent, distinct⟩ := List.nodup_cons.mp distinct
    rcases List.mem_cons.mp member with rfl | later
    · have others : rest.filter (fun b => key b == key a) = [] := by
        refine List.filter_eq_nil_iff.mpr fun b inside same => absent ?_
        rw [← eq_of_beq same]
        exact List.mem_map_of_mem inside
      rw [List.filter_cons, if_pos (beq_self_eq_true _), others]
    · have other : ¬key first == key a := by
        intro same
        rw [eq_of_beq same] at absent
        exact absent (List.mem_map_of_mem later)
      rw [List.filter_cons, if_neg other, ih distinct later]

namespace TypeDecl

def methods (decl : TypeDecl) : List Method :=
  (match decl.shape with | .trait methods => methods | .struct _ | .enum _ => []) ++
    decl.inherent ++ decl.impls.flatMap ImplDecl.methods

def fields (decl : TypeDecl) : List FieldDecl :=
  match decl.shape with
  | .struct fields => fields
  | .enum _ | .trait _ => []

def DeclaresOnce (decl : TypeDecl) (name : Ident) (count : Nat) : Prop :=
  ∃ method, decl.methods.filter (fun other => other.name == name) = [method] ∧
    method.params.length = count

def HoldsOnce (decl : TypeDecl) (name : Ident) : Prop :=
  ∃ field, decl.fields.filter (fun other => other.name == name) = [field]

variable {decl : TypeDecl}

theorem declaresOnce_of_mem {method : Method} (distinct : (decl.methods.map Method.name).Nodup)
    (member : method ∈ decl.methods) : decl.DeclaresOnce method.name method.params.length :=
  ⟨method, filter_key_eq_singleton distinct member, rfl⟩

theorem holdsOnce_of_mem {name : Ident} (distinct : (decl.fields.map FieldDecl.name).Nodup)
    (member : name ∈ decl.fields.map FieldDecl.name) : decl.HoldsOnce name := by
  obtain ⟨field, inside, rfl⟩ := List.mem_map.mp member
  exact ⟨field, filter_key_eq_singleton distinct inside⟩

end TypeDecl

namespace Naming

def initial (x : Ident) : Option Char := x.name.toList.head?

@[simp] theorem initial_getMethod (x : Ident) : initial (getMethod x) = some 'g' := by
  simp [initial, getMethod, plain]

@[simp] theorem initial_putMethod (x : Ident) : initial (putMethod x) = some 'p' := by
  simp [initial, putMethod, plain]

@[simp] theorem initial_readMethod (x : Ident) : initial (readMethod x) = some 'r' := by
  simp [initial, readMethod, plain]

@[simp] theorem initial_writeMethod (x : Ident) : initial (writeMethod x) = some 'w' := by
  simp [initial, writeMethod, plain]

theorem ne_of_initial {x y : Ident} (apart : initial x ≠ initial y) : x ≠ y :=
  fun same => apart (congrArg initial same)

theorem getMethod_inj {x y : Ident} : getMethod x = getMethod y ↔ stem x = stem y := by
  simp [getMethod, plain]

theorem putMethod_inj {x y : Ident} : putMethod x = putMethod y ↔ stem x = stem y := by
  simp [putMethod, plain]

theorem readMethod_inj {x y : Ident} : readMethod x = readMethod y ↔ stem x = stem y := by
  simp [readMethod, plain]

theorem writeMethod_inj {x y : Ident} : writeMethod x = writeMethod y ↔ stem x = stem y := by
  simp [writeMethod, plain]

end Naming

variable {runtime : Path} {entities : List Entity}

namespace Entity.Apart

/-- The names that are made from the stems of entities differ if the stems do. -/
theorem nodup_map {α : Type} (apart : Apart entities) {name : Ident → α}
    (inj : ∀ x y, name x = name y → Naming.stem x = Naming.stem y) :
    (entities.map fun entity => name entity.name).Nodup := by
  rw [Apart, List.Nodup, List.pairwise_map] at apart
  rw [List.Nodup, List.pairwise_map]
  exact apart.imp fun other same => other (Naming.getMethod_inj.mpr (inj _ _ same))

theorem nodup_access (apart : Apart entities) : (entities.flatMap fun entity =>
    [Naming.readMethod entity.name, Naming.writeMethod entity.name]).Nodup := by
  refine List.nodup_flatMap.mpr ⟨fun entity _ => ?_, ?_⟩
  · simp [Naming.ne_of_initial]
  · rw [Apart, List.Nodup, List.pairwise_map] at apart
    refine apart.imp fun other => ?_
    rw [ne_eq, Naming.getMethod_inj] at other
    have reads := mt Naming.readMethod_inj.mp (Ne.symm other)
    have writes := mt Naming.writeMethod_inj.mp (Ne.symm other)
    simp [Function.onFun, reads, writes, Naming.ne_of_initial]

end Entity.Apart

theorem Naming.nodup_append {names others : List Ident} (first : List (Option Char))
    (nodup : names.Nodup) (nodup_others : others.Nodup)
    (inside : ∀ x ∈ names, initial x ∈ first) (outside : ∀ x ∈ others, initial x ∉ first) :
    (names ++ others).Nodup := by
  refine List.nodup_append.mpr ⟨nodup, nodup_others, fun x member y other same => ?_⟩
  exact outside y other (same ▸ inside x member)

theorem Generated.Repository.nodup_methods (apart : Entity.Apart entities) :
    ((Repository.typeDecl runtime entities).methods.map Method.name).Nodup := by
  have names : (Repository.typeDecl runtime entities).methods.map Method.name =
      [Naming.plain "new", Naming.plain "builder"] ++ ((entities.flatMap fun entity =>
          [Naming.readMethod entity.name, Naming.writeMethod entity.name]) ++
        ([Naming.plain "default"] ++ (entities.map (fun entity => Naming.getMethod entity.name) ++
          entities.map fun entity => Naming.putMethod entity.name))) := by
    simp [TypeDecl.methods, typeDecl, List.map_flatMap, constructor, builderMethod, defaultMethod,
      read, write, Get.method, Put.method, Function.comp_def]
  have gets := apart.nodup_map fun _ _ => Naming.getMethod_inj.mp
  have puts := apart.nodup_map fun _ _ => Naming.putMethod_inj.mp
  have access_initial : ∀ x ∈ entities.flatMap fun entity =>
      [Naming.readMethod entity.name, Naming.writeMethod entity.name],
      Naming.initial x = some 'r' ∨ Naming.initial x = some 'w' := by
    intro x member
    obtain ⟨entity, -, member⟩ := List.mem_flatMap.mp member
    rcases List.mem_pair.mp member with rfl | rfl <;> simp
  have default_initial : Naming.initial (Naming.plain "default") = some 'd' := by decide
  rw [names]
  -- The groups of names begin with different letters.
  refine Naming.nodup_append [some 'n', some 'b'] (by decide) ?_ (by decide) ?_
  · refine Naming.nodup_append [some 'r', some 'w'] apart.nodup_access ?_ ?_ ?_
    · refine Naming.nodup_append [some 'd'] (by decide) ?_ (by decide) ?_
      · exact Naming.nodup_append [some 'g'] gets puts (by simp) (by simp)
      · simp [or_imp, forall_and]
    · simpa using access_initial
    · simp [default_initial, or_imp, forall_and]
  · refine List.forall_mem_append.mpr ⟨fun x member => ?_, ?_⟩
    · rcases access_initial x member with same | same <;> simp [same]
    · simp [default_initial, or_imp, forall_and]

variable {entity : Entity}

theorem Generated.Repository.declaresOnce (apart : Entity.Apart entities) {method : Method}
    (member : method ∈ (Repository.typeDecl runtime entities).methods) :
    (Repository.typeDecl runtime entities).DeclaresOnce method.name method.params.length :=
  TypeDecl.declaresOnce_of_mem (nodup_methods apart) member

/-- A trait with one method for each entity, of a name that is made from its stem. -/
theorem declaresOnce_of_mapM {part : Part} {name : Ident} {summary : String}
    {make : Entity → Except BadName Method} {methods : List Method} {naming : Ident → Ident}
    {count : Nat} (apart : Entity.Apart entities) (done : entities.mapM make = .ok methods)
    (inj : ∀ x y, naming x = naming y → Naming.stem x = Naming.stem y)
    (made : ∀ entity method, make entity = .ok method →
      (method.name, method.params.length) = (naming entity.name, count))
    (member : entity ∈ entities) :
    (Interfaces.traitDecl part name summary methods).DeclaresOnce (naming entity.name) count := by
  have names : (Interfaces.traitDecl part name summary methods).methods.map
      (fun method => (method.name, method.params.length)) =
      entities.map fun entity => (naming entity.name, count) := by
    rw [← map_of_mapM done made]
    simp [TypeDecl.methods, Interfaces.traitDecl, Method.signature]
  have distinct : ((Interfaces.traitDecl part name summary methods).methods.map
      Method.name).Nodup := by
    have firsts := congrArg (List.map Prod.fst) names
    rw [List.map_map, List.map_map] at firsts
    exact firsts ▸ apart.nodup_map inj
  have listed : (naming entity.name, count) ∈ (Interfaces.traitDecl part name summary
      methods).methods.map (fun method => (method.name, method.params.length)) := by
    rw [names]
    exact List.mem_map_of_mem member
  obtain ⟨method, inside, same⟩ := List.mem_map.mp listed
  obtain ⟨named, counted⟩ := Prod.mk.inj same
  rw [← named, ← counted]
  exact TypeDecl.declaresOnce_of_mem distinct inside

theorem Generated.MemoryStore.of_get {method : Method}
    (done : MemoryStore.get runtime entity = .ok method) :
    ∃ field, Naming.byIdField entity.name = .ok field ∧
      method = {
        name := Naming.getMethod entity.name
        params := [(idVar, entity.type.idRef runtime)]
        result := some entity.type.found
        body := some [.ret ((((Expr.self.field field).get "borrow").call (Naming.plain "get")
          [.name idVar]).get "cloned")] } := by
  obtain ⟨field, named, done⟩ := ok_of_bind done
  exact ⟨field, named, (Except.ok.inj done).symm⟩

theorem Generated.MemoryStore.of_put {method : Method}
    (done : MemoryStore.put runtime entity = .ok method) :
    ∃ field, Naming.byIdField entity.name = .ok field ∧
      method = {
        name := Naming.putMethod entity.name
        params := [(entityVar, Code.shared entity.type.fromStore)]
        result := some [.plain "bool"]
        body := some [
          .decl false idVar none (some (.invoke runtime.idFunction
            [(Expr.literal [.punct '*', .word entityVar]).borrow])),
          .expr (((Expr.self.field field).get "borrow_mut").call (Naming.plain "insert")
            [.name idVar, .name entityVar]),
          .ret (.literal [.plain "true"])] } := by
  obtain ⟨field, named, done⟩ := ok_of_bind done
  exact ⟨field, named, (Except.ok.inj done).symm⟩

theorem Generated.MemoryStore.of_field {field : FieldDecl}
    (done : MemoryStore.field runtime entity = .ok field) :
    Naming.byIdField entity.name = .ok field.name ∧
      field = {
        name := field.name
        type := Code.refCell.applied (Code.hashMap.applied
          (Code.commas [entity.type.idType runtime, Code.shared entity.type.fromStore])) } := by
  obtain ⟨name, named, done⟩ := ok_of_bind done
  obtain rfl := Except.ok.inj done
  exact ⟨named, rfl⟩

theorem Naming.byIdField_eq_ok {x field : Ident} (named : byIdField x = .ok field) :
    field = plain (stem x ++ "_by_id") := by
  simp only [byIdField] at named
  split at named
  · exact (Except.ok.inj named).symm
  · cases named

theorem Generated.MemoryStore.names_fields {memory : TypeDecl}
    (done : MemoryStore.typeDecl runtime entities = .ok memory) :
    memory.fields.map FieldDecl.name =
      entities.map fun entity => Naming.plain (Naming.stem entity.name ++ "_by_id") := by
  obtain ⟨fields, _, _, made, -, -, -, -, shape, -⟩ := MemoryStore.of_typeDecl done
  rw [TypeDecl.fields, shape]
  refine map_of_mapM made fun entity field done => ?_
  exact Naming.byIdField_eq_ok (MemoryStore.of_field done).1

theorem Generated.MemoryStore.nodup_fields {memory : TypeDecl} (apart : Entity.Apart entities)
    (done : MemoryStore.typeDecl runtime entities = .ok memory) :
    (memory.fields.map FieldDecl.name).Nodup := by
  have inj : ∀ x y, Naming.plain (Naming.stem x ++ "_by_id") =
      Naming.plain (Naming.stem y ++ "_by_id") → Naming.stem x = Naming.stem y := by
    simp [Naming.plain]
  rw [names_fields done]
  exact apart.nodup_map inj

namespace StoreSide

variable (side : StoreSide runtime entities)

theorem reader_declaresOnce (member : entity ∈ entities) :
    side.reader.DeclaresOnce (Naming.getMethod entity.name) 1 := by
  obtain ⟨methods, getters, same⟩ := Interfaces.of_storeReader side.reader_ok
  rw [same]
  refine declaresOnce_of_mapM side.apart getters (fun _ _ => Naming.getMethod_inj.mp) ?_ member
  intro entity method made
  obtain ⟨field, -, rfl⟩ := MemoryStore.of_get made
  rfl

theorem writer_declaresOnce (member : entity ∈ entities) :
    side.writer.DeclaresOnce (Naming.putMethod entity.name) 1 := by
  obtain ⟨methods, putters, same⟩ := Interfaces.of_storeWriter side.writer_ok
  rw [same]
  refine declaresOnce_of_mapM side.apart putters (fun _ _ => Naming.putMethod_inj.mp) ?_ member
  intro entity method made
  obtain ⟨field, -, rfl⟩ := MemoryStore.of_put made
  rfl

theorem memory_holdsOnce {field : Ident} (member : entity ∈ entities)
    (named : Naming.byIdField entity.name = .ok field) : side.memory.HoldsOnce field := by
  refine TypeDecl.holdsOnce_of_mem (MemoryStore.nodup_fields side.apart side.memory_ok) ?_
  rw [MemoryStore.names_fields side.memory_ok, Naming.byIdField_eq_ok named]
  exact List.mem_map_of_mem member

end StoreSide
end EntityGen
