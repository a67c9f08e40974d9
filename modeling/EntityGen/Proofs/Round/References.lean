import EntityGen.Proofs.Generated.Declarations
import EntityGen.Proofs.Resolve.Partition
import EntityGen.Proofs.Round.Offers

/-! What generated code refers to is generated with it. The types of the store module implement
their traits method by method, call no method and read no field that is not declared, and lead to
no type outside of the module but to the entities of the round. -/
namespace EntityGen

open Generated

variable {runtime : Path} {entities : List Entity} {entity : Entity}

structure Method.Fulfils (implemented declared : Method) : Prop where
  declaration : declared.code = .plain "fn" :: declared.head ++ [.punct ';']
  implementation : ∃ body, implemented.body = some body ∧
    implemented.code = .plain "fn" :: declared.head ++ Code.within .curly (Body.code .method body)

/-- A type has one implementation of a trait, with the methods of the trait in their order. -/
def TypeDecl.Implements (decl trait : TypeDecl) : Prop :=
  ∃ impl declared, decl.impls.filter (fun impl => impl.trait == [.word trait.name]) = [impl] ∧
    trait.shape = .trait declared ∧ List.Forall₂ Method.Fulfils impl.methods declared

theorem Method.fulfils_signature {method : Method} {body : Body} (bare : method.attrs = [])
    (hidden : method.isPublic = false) (given : method.body = some body) :
    method.Fulfils method.signature := by
  refine ⟨rfl, body, given, ?_⟩
  simp only [code, given, bare, hidden]
  rfl

theorem TypeDecl.implements_traitDecl {decl : TypeDecl} {impl : ImplDecl} {part : Part}
    {name : Ident} {summary : String}
    (only : decl.impls.filter (fun impl => impl.trait == [.word name]) = [impl])
    (fulfilled : ∀ method ∈ impl.methods, method.Fulfils method.signature) :
    decl.Implements (Interfaces.traitDecl part name summary impl.methods) :=
  ⟨impl, _, only, rfl, List.forall₂_map_right_iff.mpr (List.forall₂_same.mpr fulfilled)⟩

namespace StoreSide

variable (side : StoreSide runtime entities)

theorem memory_implements_reader : side.memory.Implements side.reader := by
  obtain ⟨getters, _, made, -, impls, reader, -⟩ := side.exists_methods
  rw [reader]
  have only : side.memory.impls.filter (fun impl => impl.trait == [.word Naming.storeReader]) =
      [⟨[], [.word Naming.storeReader], [], getters⟩] := by
    rw [impls]
    rfl
  refine TypeDecl.implements_traitDecl only fun method member => ?_
  obtain ⟨entity, -, done⟩ := mem_of_mapM made member
  obtain ⟨field, -, rfl⟩ := MemoryStore.of_get done
  exact Method.fulfils_signature rfl rfl rfl

theorem memory_implements_writer : side.memory.Implements side.writer := by
  obtain ⟨_, putters, -, made, impls, -, writer⟩ := side.exists_methods
  rw [writer]
  have only : side.memory.impls.filter (fun impl => impl.trait == [.word Naming.storeWriter]) =
      [⟨[], [.word Naming.storeWriter], [], putters⟩] := by
    rw [impls]
    rfl
  refine TypeDecl.implements_traitDecl only fun method member => ?_
  obtain ⟨entity, -, done⟩ := mem_of_mapM made member
  obtain ⟨field, -, rfl⟩ := MemoryStore.of_put done
  exact Method.fulfils_signature rfl rfl rfl

end StoreSide

theorem Generated.Repository.implements_reader : (Repository.typeDecl runtime entities).Implements
    (Interfaces.repositoryReader runtime entities) := by
  have only : (Repository.typeDecl runtime entities).impls.filter
      (fun impl => impl.trait == [.word Naming.repositoryReader]) =
        [⟨[], [.word Naming.repositoryReader], [], entities.map (Get.method runtime)⟩] := rfl
  refine TypeDecl.implements_traitDecl only (List.forall_mem_map.mpr fun entity _ => ?_)
  exact Method.fulfils_signature rfl rfl rfl

theorem Generated.Repository.implements_writer : (Repository.typeDecl runtime entities).Implements
    (Interfaces.repositoryWriter entities) := by
  have only : (Repository.typeDecl runtime entities).impls.filter
      (fun impl => impl.trait == [.word Naming.repositoryWriter]) =
        [⟨[], [.word Naming.repositoryWriter], [], entities.map Put.method⟩] := rfl
  refine TypeDecl.implements_traitDecl only (List.forall_mem_map.mpr fun entity _ => ?_)
  exact Method.fulfils_signature rfl rfl rfl

def GeneratedUnit.isOf (type : EntityType) (unit : GeneratedUnit) : Bool :=
  match unit.placement with
  | .entity module _ => module == type.module && unit.name == type.name
  | .store => false

namespace Round

/-- The paths that lead out of the store module: into the library that runs it, and to the one unit
of an entity type, or to the constructor there. -/
inductive Leads (runtime : Path) (entities : List Entity) : Code → Prop
  | entityTrait : Leads runtime entities runtime.entityTrait
  | idFunction : Leads runtime entities runtime.idFunction
  | reconcile : Leads runtime entities runtime.reconcile
  | type {type : EntityType} {unit : GeneratedUnit}
    (only : (entityUnits runtime entities).filter (GeneratedUnit.isOf type) = [unit]) :
    Leads runtime entities type.fromStore
  | constructor {type : EntityType} {unit : GeneratedUnit}
    (only : (entityUnits runtime entities).filter (GeneratedUnit.isOf type) = [unit]) :
    Leads runtime entities (type.fromStore.step ⟨"new", false⟩)

/-- What code in the store module may use: the names that are given in a round, and its paths. -/
def known (runtime : Path) (entities : List Entity) : Code.Known where
  names x := ∃ entity ∈ entities, x = entity.name ∨ x ∈ entity.properties.map Property.name
  paths := Leads runtime entities

end Round

/-- Entities that differ by name and refer to each other only. -/
structure Entity.Linked (entities : List Entity) : Prop where
  distinct : (entities.map Entity.name).Nodup
  closed : ∀ entity ∈ entities, ∀ property ∈ entity.properties,
    ∀ target ∈ property.resolved.targets, ∃ owner ∈ entities, owner.type = target

theorem Resolution.linked_ofSpecs (specs : List Spec) : Entity.Linked (ofSpecs specs).entities where
  distinct := by
    refine List.Nodup.of_map Ident.text ?_
    rw [List.map_map]
    exact nodup_names specs
  closed := by
    intro entity member property inside target reached
    obtain ⟨spec, -, rfl⟩ := mem_entities_iff.mp member
    obtain ⟨field, -, rfl⟩ := List.mem_map.mp inside
    exact mem_table_iff.mp (EntityTable.mem_of_mem_targets field.ty reached)

/-- An entity has one unit. -/
theorem Round.filter_isOf (distinct : (entities.map Entity.name).Nodup)
    (member : entity ∈ entities) :
    (entityUnits runtime entities).filter (GeneratedUnit.isOf entity.type) =
      [(entity.typeDecl runtime).unit] := by
  have types : (entities.map Entity.type).Nodup := by
    refine List.Nodup.of_map EntityType.name ?_
    rwa [List.map_map]
  have same : GeneratedUnit.isOf entity.type ∘
      (fun other : Entity => (other.typeDecl runtime).unit) =
        fun other : Entity => other.type == entity.type := by
    funext other
    rw [Bool.eq_iff_iff]
    simp [GeneratedUnit.isOf, TypeDecl.unit, Entity.typeDecl, Entity.type, Entity.name]
  rw [entityUnits, List.filter_map, same, filter_key_eq_singleton types member, List.map_singleton]

theorem Round.covers_known (linked : Entity.Linked entities) :
    (known runtime entities).Covers runtime entities where
  runs := ⟨.entityTrait, .idFunction, .reconcile⟩
  reaches _ member :=
    have only := filter_isOf linked.distinct member
    ⟨.type only, .constructor only⟩
  names entity member := Code.closed_of_name ⟨entity, member, .inl rfl⟩
  properties entity member _ inside :=
    Code.closed_of_name ⟨entity, member, .inr (List.mem_map_of_mem inside)⟩

def TypeDecl.scope (decl : TypeDecl) (decls : List TypeDecl) : Scope where
  method := decl.DeclaresOnce
  field := decl.HoldsOnce
  store list method count := ∃ trait,
    decls.filter (fun other => other.name == list.trait) = [trait] ∧ trait.DeclaresOnce method count

theorem Generated.StoreList.holdsOnce_fields {decl : TypeDecl} {list : StoreList}
    (shape : decl.shape = .struct (all.map StoreList.field)) (member : list ∈ all) :
    decl.HoldsOnce list.name := by
  have fields : decl.fields.map FieldDecl.name = all.map StoreList.name := by
    rw [TypeDecl.fields, shape, List.map_map]
    rfl
  have distinct : (decl.fields.map FieldDecl.name).Nodup := by
    rw [fields]
    decide
  refine TypeDecl.holdsOnce_of_mem distinct ?_
  rw [fields]
  exact List.mem_map_of_mem member

theorem Generated.Repository.serves (decls : List TypeDecl) (apart : Entity.Apart entities)
    (member : entity ∈ entities) :
    ((Repository.typeDecl runtime entities).scope decls).Serves entity.type := by
  have inherent : ∀ method ∈ [read runtime entity, write entity],
      method ∈ (Repository.typeDecl runtime entities).methods := by
    intro method inside
    have access : method ∈ entities.flatMap fun entity => [read runtime entity, write entity] :=
      List.mem_flatMap.mpr ⟨entity, member, inside⟩
    refine List.mem_append_left _ (List.mem_append_right _ ?_)
    exact List.mem_cons_of_mem _ (List.mem_cons_of_mem _ access)
  have reads := inherent (read runtime entity) (by simp)
  have writes := inherent (write entity) (by simp)
  have gets : Get.method runtime entity ∈ (Repository.typeDecl runtime entities).methods := by
    simp [TypeDecl.methods, typeDecl, List.mem_map_of_mem member]
  have puts : Put.method entity ∈ (Repository.typeDecl runtime entities).methods := by
    simp [TypeDecl.methods, typeDecl, List.mem_map_of_mem member]
  exact {
    get := declaresOnce apart gets
    put := declaresOnce apart puts
    read := declaresOnce apart reads
    write := declaresOnce apart writes }

namespace StoreSide

variable (side : StoreSide runtime entities)

/-- A type of the store module is the only one of its name. -/
theorem filter_name {decl : TypeDecl} (member : decl ∈ side.decls) :
    side.decls.filter (fun other => other.name == decl.name) = [decl] := by
  have distinct : (side.decls.map TypeDecl.name).Nodup := by
    rw [names_decls]
    decide
  exact filter_key_eq_singleton distinct member

theorem reader_stored (decl : TypeDecl) (member : entity ∈ entities) :
    (decl.scope side.decls).store .readers (Naming.getMethod entity.name) 1 := by
  have name : side.reader.name = StoreList.readers.trait := by
    obtain ⟨_, -, reader⟩ := Interfaces.of_storeReader side.reader_ok
    rw [reader]
    rfl
  have inside : side.reader ∈ side.decls := by simp [decls]
  have only := side.filter_name inside
  exact ⟨side.reader, name ▸ only, side.reader_declaresOnce member⟩

theorem writer_stored (decl : TypeDecl) (member : entity ∈ entities) :
    (decl.scope side.decls).store .writers (Naming.putMethod entity.name) 1 := by
  have name : side.writer.name = StoreList.writers.trait := by
    obtain ⟨_, -, writer⟩ := Interfaces.of_storeWriter side.writer_ok
    rw [writer]
    rfl
  have inside : side.writer ∈ side.decls := by simp [decls]
  have only := side.filter_name inside
  exact ⟨side.writer, name ▸ only, side.writer_declaresOnce member⟩

theorem sound_memory (linked : Entity.Linked entities) :
    side.memory.Sound (side.memory.scope side.decls) (Round.known runtime entities) :=
  MemoryStore.sound_typeDecl (Round.covers_known linked)
    (fun _ member _ named => side.memory_holdsOnce member named) side.memory_ok

theorem sound_reader (linked : Entity.Linked entities) :
    side.reader.Sound (side.reader.scope side.decls) (Round.known runtime entities) := by
  obtain ⟨getters, _, -, -, impls, reader, -⟩ := side.exists_methods
  have sound := (side.sound_memory linked).impls
  rw [impls] at sound
  rw [reader]
  exact Interfaces.sound_traitDecl (Code.closed_name_plain (by decide))
    (sound _ List.mem_cons_self).methods

theorem sound_writer (linked : Entity.Linked entities) :
    side.writer.Sound (side.writer.scope side.decls) (Round.known runtime entities) := by
  obtain ⟨_, putters, -, -, impls, -, writer⟩ := side.exists_methods
  have sound := (side.sound_memory linked).impls
  rw [impls] at sound
  rw [writer]
  exact Interfaces.sound_traitDecl (Code.closed_name_plain (by decide))
    (sound _ (List.mem_cons_of_mem _ List.mem_cons_self)).methods

theorem sound_repository (linked : Entity.Linked entities) :
    (Repository.typeDecl runtime entities).Sound
      ((Repository.typeDecl runtime entities).scope side.decls) (Round.known runtime entities) := by
  refine Repository.sound_typeDecl (Round.covers_known linked) ?_ ?_ ?_ ?_ ?_
  · exact fun list member => StoreList.holdsOnce_fields rfl member
  · exact fun entity member => Repository.serves side.decls side.apart member
  · intro entity member property inside target reached
    obtain ⟨owner, there, rfl⟩ := linked.closed entity member property inside target reached
    exact Repository.serves side.decls side.apart there
  · exact fun entity member => side.reader_stored _ member
  · exact fun entity member => side.writer_stored _ member

theorem sound_repositoryReader (linked : Entity.Linked entities) :
    (Interfaces.repositoryReader runtime entities).Sound
      ((Interfaces.repositoryReader runtime entities).scope side.decls)
      (Round.known runtime entities) := by
  have sound := (side.sound_repository linked).impls
  refine Interfaces.sound_traitDecl (Code.closed_name_plain (by decide)) (sound
    ⟨[], [.word Naming.repositoryReader], [], entities.map (Get.method runtime)⟩ ?_).methods
  simp [Repository.typeDecl]

theorem sound_repositoryWriter (linked : Entity.Linked entities) :
    (Interfaces.repositoryWriter entities).Sound
      ((Interfaces.repositoryWriter entities).scope side.decls) (Round.known runtime entities) := by
  have sound := (side.sound_repository linked).impls
  refine Interfaces.sound_traitDecl (Code.closed_name_plain (by decide)) (sound
    ⟨[], [.word Naming.repositoryWriter], [], entities.map Put.method⟩ ?_).methods
  simp [Repository.typeDecl]

theorem sound_repositoryBuilder : RepositoryBuilder.typeDecl.Sound
    (RepositoryBuilder.typeDecl.scope side.decls) (Round.known runtime entities) :=
  RepositoryBuilder.sound_typeDecl fun _ member => StoreList.holdsOnce_fields rfl member

/-- Each type of the store module finds what it refers to. -/
theorem sound_decls (linked : Entity.Linked entities) :
    ∀ decl ∈ side.decls, decl.Sound (decl.scope side.decls) (Round.known runtime entities) := by
  have entityRef : (EntityRef.typeDecl runtime entities).Sound
      ((EntityRef.typeDecl runtime entities).scope side.decls) (Round.known runtime entities) :=
    EntityRef.sound_typeDecl (Round.covers_known linked)
  intro decl member
  rw [decls] at member
  rcases List.mem_cons.mp member with rfl | member
  · exact side.sound_memory linked
  rcases List.mem_cons.mp member with rfl | member
  · exact side.sound_repository linked
  rcases List.mem_cons.mp member with rfl | member
  · exact side.sound_repositoryBuilder
  rcases List.mem_cons.mp member with rfl | member
  · exact side.sound_reader linked
  rcases List.mem_cons.mp member with rfl | member
  · exact side.sound_writer linked
  rcases List.mem_cons.mp member with rfl | member
  · exact entityRef
  rcases List.mem_pair.mp member with rfl | rfl
  · exact side.sound_repositoryReader linked
  · exact side.sound_repositoryWriter linked

/-- Whatever the types of the store module refer to is generated. -/
structure Connected (side : StoreSide runtime entities) : Prop where
  reader : side.memory.Implements side.reader
  writer : side.memory.Implements side.writer
  repositoryReader : (Repository.typeDecl runtime entities).Implements
    (Interfaces.repositoryReader runtime entities)
  repositoryWriter : (Repository.typeDecl runtime entities).Implements
    (Interfaces.repositoryWriter entities)
  calls : ∀ decl ∈ side.decls, ∀ method ∈ decl.methods, ∀ body ∈ method.body,
    ∀ node ∈ Body.nodes body, node.Resolves (decl.scope side.decls)
  paths : ∀ decl ∈ side.decls, Code.Closed (Round.known runtime entities) decl.code
  /-- The repository and the traits of its stores have their methods for each entity. -/
  served : ∀ entity ∈ entities,
    ((Repository.typeDecl runtime entities).scope side.decls).Serves entity.type ∧
      side.reader.DeclaresOnce (Naming.getMethod entity.name) 1 ∧
      side.writer.DeclaresOnce (Naming.putMethod entity.name) 1
  /-- Each entity has a unit to be found by its type. -/
  placed : ∀ entity ∈ entities, (Round.entityUnits runtime entities).filter
    (GeneratedUnit.isOf entity.type) = [(entity.typeDecl runtime).unit]

end StoreSide

/-- The store side of a resolution refers to nothing that is not generated. -/
theorem Resolution.connected_ofSpecs (specs : List Spec) (runtime : Path)
    {groups : List (List TypeDecl)}
    (done : (Part.all.filter Part.inStore).mapM
      (fun part => part.decls runtime (ofSpecs specs).entities) = .ok groups) :
    ∃ side : StoreSide runtime (ofSpecs specs).entities,
      groups.flatten = side.decls ∧ side.Connected := by
  obtain ⟨side, same⟩ := StoreSide.of_decls (forall₂_of_mapM done)
  have sound := side.sound_decls (linked_ofSpecs specs)
  exact ⟨side, same, {
    reader := side.memory_implements_reader
    writer := side.memory_implements_writer
    repositoryReader := Repository.implements_reader
    repositoryWriter := Repository.implements_writer
    calls := fun decl member method inside body given =>
      (((sound decl member).methods method inside).body body given).resolves
    paths := fun decl member => (sound decl member).code
    served := fun entity member => ⟨Repository.serves side.decls side.apart member,
      side.reader_declaresOnce member, side.writer_declaresOnce member⟩
    placed := fun entity member => Round.filter_isOf (linked_ofSpecs specs).distinct member }⟩

/-- The eight types for notes and their tags refer to each other and to the two entities only. -/
theorem Notes.connected_items : ∃ groups,
    (Part.all.filter Part.inStore).mapM (fun part : Part =>
      part.decls (Settings.runtime {}) (Round.entitiesOf items)) = .ok groups ∧
    ∃ side : StoreSide (Settings.runtime {}) (Round.entitiesOf items),
      groups.flatten = side.decls ∧ side.Connected := by
  have planned : ((Part.all.filter Part.inStore).mapM (fun part : Part =>
      part.decls (Settings.runtime {}) (Round.entitiesOf items))).toOption.isSome := by
    decide +kernel
  cases done : (Part.all.filter Part.inStore).mapM (fun part : Part =>
      part.decls (Settings.runtime {}) (Round.entitiesOf items)) with
  | error =>
    rw [done] at planned
    cases planned
  | ok groups =>
    exact ⟨groups, rfl, Resolution.connected_ofSpecs (Intake.ofItems [] items).specs _ done⟩

end EntityGen
