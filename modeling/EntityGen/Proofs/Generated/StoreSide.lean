import EntityGen.Generated.Plan
import EntityGen.Proofs.Outcome
import Mathlib.Data.List.Nodup

/-! The types of the store module. There are eight of them for any entities, and either all of them
can be generated or none, because two entities share the names of their methods. -/
namespace EntityGen

open Generated

variable {runtime : Path} {entities : List Entity}

def Naming.storeTypes : List Ident :=
  [memoryStore, repository, repositoryBuilder, storeReader, storeWriter, entityRef,
    repositoryReader, repositoryWriter]

def Entity.Apart (entities : List Entity) : Prop :=
  (entities.map fun entity => Naming.getMethod entity.name).Nodup

theorem Entity.apart_append_singleton {earlier : List Entity} {entity : Entity} :
    Apart (earlier ++ [entity]) ↔ Apart earlier ∧
      ∀ first ∈ earlier, Naming.getMethod first.name ≠ Naming.getMethod entity.name := by
  simp [Apart, List.nodup_append]

theorem sharedAccessor?_eq_none_iff {earlier : List Entity} (apart : Entity.Apart earlier) :
    sharedAccessor? earlier entities = none ↔ Entity.Apart (earlier ++ entities) := by
  induction entities generalizing earlier with
  | nil => simpa [sharedAccessor?] using apart
  | cons entity rest ih =>
    rw [List.append_cons]
    unfold sharedAccessor?
    split
    next first found =>
      have same := List.find?_some found
      simp only [reduceCtorEq, false_iff]
      intro all
      rw [Entity.Apart, List.map_append] at all
      exact (Entity.apart_append_singleton.mp all.of_append_left).2 first
        (List.mem_of_find?_eq_some found) (by simpa using same)
    next free =>
      refine ih (Entity.apart_append_singleton.mpr ⟨apart, fun first member same => ?_⟩)
      exact List.find?_eq_none.mp free first member (by simpa using same)

namespace Part

/-- The report that two entities share the names of their methods. -/
def accessorClash? (part : Part) (entities : List Entity) : Option Clash :=
  (sharedAccessor? [] entities).map fun (first, second) =>
    .accessor part (Naming.getMethod second.name).text first.type.text second.type.text
      second.spec.pos

theorem accessorClash?_eq_none_iff (part : Part) :
    part.accessorClash? entities = none ↔ Entity.Apart entities := by
  rw [accessorClash?, Option.map_eq_none_iff]
  exact sharedAccessor?_eq_none_iff List.nodup_nil

theorem checkAccessors_eq (part : Part) (entities : List Entity) : part.checkAccessors entities =
    match part.accessorClash? entities with
    | none => .ok ()
    | some clash => .error (.clash clash) := by
  unfold checkAccessors accessorClash?
  cases sharedAccessor? [] entities <;> rfl

variable {part : Part} {group : List TypeDecl}

theorem decls_of_clash {clash : Clash} (stored : part.inStore)
    (found : part.accessorClash? entities = some clash) :
    part.decls runtime entities = .error (.clash clash) := by
  unfold decls
  rw [if_pos stored, checkAccessors_eq, found]
  rfl

theorem apart_of_decls (stored : part.inStore) (done : part.decls runtime entities = .ok group) :
    Entity.Apart entities := by
  cases found : part.accessorClash? entities with
  | none => exact (accessorClash?_eq_none_iff part).mp found
  | some clash =>
    rw [decls_of_clash stored found] at done
    cases done

/-- No part shares a name if the methods of the entities do not. -/
theorem decls_ne_clash {clash : Clash} (apart : Entity.Apart entities) :
    part.decls runtime entities ≠ .error (.clash clash) := by
  have free := (accessorClash?_eq_none_iff part).mpr apart
  unfold decls
  rw [checkAccessors_eq, free]
  cases part with
  | entity => nofun
  | store => cases MemoryStore.typeDecl runtime entities <;> nofun
  | repository => nofun
  | storeInterfaces =>
    cases Interfaces.storeReader runtime entities <;>
      cases Interfaces.storeWriter runtime entities <;> nofun
  | repositoryInterfaces => nofun

theorem store_decls (done : store.decls runtime entities = .ok group) :
    ∃ memory, MemoryStore.typeDecl runtime entities = .ok memory ∧ group = [memory] := by
  obtain ⟨_, -, done⟩ := ok_of_bind done
  obtain ⟨memory, stored, done⟩ := ok_of_bind done
  exact ⟨memory, ok_of_mapError stored, (Except.ok.inj done).symm⟩

theorem repository_decls (done : repository.decls runtime entities = .ok group) :
    group = [Repository.typeDecl runtime entities, RepositoryBuilder.typeDecl] := by
  obtain ⟨_, -, done⟩ := ok_of_bind done
  exact (Except.ok.inj done).symm

theorem storeInterfaces_decls (done : storeInterfaces.decls runtime entities = .ok group) :
    ∃ reader writer, Interfaces.storeReader runtime entities = .ok reader ∧
      Interfaces.storeWriter runtime entities = .ok writer ∧ group = [reader, writer] := by
  obtain ⟨_, -, done⟩ := ok_of_bind done
  obtain ⟨reader, read, done⟩ := ok_of_bind done
  obtain ⟨writer, written, done⟩ := ok_of_bind done
  exact ⟨reader, writer, ok_of_mapError read, ok_of_mapError written, (Except.ok.inj done).symm⟩

theorem repositoryInterfaces_decls
    (done : repositoryInterfaces.decls runtime entities = .ok group) :
    group = [EntityRef.typeDecl runtime entities, Interfaces.repositoryReader runtime entities,
      Interfaces.repositoryWriter entities] := by
  obtain ⟨_, -, done⟩ := ok_of_bind done
  exact (Except.ok.inj done).symm

end Part

theorem Generated.MemoryStore.of_typeDecl {memory : TypeDecl}
    (done : MemoryStore.typeDecl runtime entities = .ok memory) :
    ∃ fields getters putters, entities.mapM (MemoryStore.field runtime) = .ok fields ∧
      entities.mapM (MemoryStore.get runtime) = .ok getters ∧
      entities.mapM (MemoryStore.put runtime) = .ok putters ∧
      memory.name = Naming.memoryStore ∧ memory.placement = .store ∧
      memory.shape = .struct fields ∧ memory.inherent = [MemoryStore.constructor] ∧
      memory.impls = [{ trait := [.word Naming.storeReader], methods := getters },
        { trait := [.word Naming.storeWriter], methods := putters }] := by
  obtain ⟨fields, fields_ok, done⟩ := ok_of_bind done
  obtain ⟨getters, getters_ok, done⟩ := ok_of_bind done
  obtain ⟨putters, putters_ok, done⟩ := ok_of_bind done
  obtain rfl := Except.ok.inj done
  exact ⟨fields, getters, putters, fields_ok, getters_ok, putters_ok, rfl, rfl, rfl, rfl, rfl⟩

theorem Generated.Interfaces.of_storeReader {reader : TypeDecl}
    (done : Interfaces.storeReader runtime entities = .ok reader) :
    ∃ methods, entities.mapM (MemoryStore.get runtime) = .ok methods ∧
      reader = traitDecl .storeInterfaces Naming.storeReader " Read side of an entity store."
        methods := by
  obtain ⟨methods, methods_ok, done⟩ := ok_of_bind done
  exact ⟨methods, methods_ok, (Except.ok.inj done).symm⟩

theorem Generated.Interfaces.of_storeWriter {writer : TypeDecl}
    (done : Interfaces.storeWriter runtime entities = .ok writer) :
    ∃ methods, entities.mapM (MemoryStore.put runtime) = .ok methods ∧
      writer = traitDecl .storeInterfaces Naming.storeWriter
        " Write side of an entity store. `put_*` reports whether the entity was stored."
        methods := by
  obtain ⟨methods, methods_ok, done⟩ := ok_of_bind done
  exact ⟨methods, methods_ok, (Except.ok.inj done).symm⟩

/-- The store side of entities of which each has methods of its own. -/
structure StoreSide (runtime : Path) (entities : List Entity) where
  memory : TypeDecl
  reader : TypeDecl
  writer : TypeDecl
  apart : Entity.Apart entities
  memory_ok : MemoryStore.typeDecl runtime entities = .ok memory
  reader_ok : Interfaces.storeReader runtime entities = .ok reader
  writer_ok : Interfaces.storeWriter runtime entities = .ok writer

namespace StoreSide

def decls (side : StoreSide runtime entities) : List TypeDecl :=
  [side.memory, Repository.typeDecl runtime entities, RepositoryBuilder.typeDecl, side.reader,
    side.writer, EntityRef.typeDecl runtime entities, Interfaces.repositoryReader runtime entities,
    Interfaces.repositoryWriter entities]

/-- The parts of the store side are the types of the store module, one after the other. -/
theorem of_decls {groups : List (List TypeDecl)}
    (done : List.Forall₂ (fun part group => Part.decls part runtime entities = .ok group)
      (Part.all.filter Part.inStore) groups) :
    ∃ side : StoreSide runtime entities, groups.flatten = side.decls := by
  obtain _ | ⟨stored, _ | ⟨repository, _ | ⟨traits, _ | ⟨interfaces, _ | _⟩⟩⟩⟩ := done
  obtain ⟨memory, memory_ok, rfl⟩ := Part.store_decls stored
  obtain rfl := Part.repository_decls repository
  obtain ⟨reader, writer, reader_ok, writer_ok, rfl⟩ := Part.storeInterfaces_decls traits
  obtain rfl := Part.repositoryInterfaces_decls interfaces
  exact ⟨⟨memory, reader, writer, Part.apart_of_decls rfl stored, memory_ok, reader_ok, writer_ok⟩,
    rfl⟩

/-- The store has the methods of both of its traits. -/
theorem exists_methods (side : StoreSide runtime entities) : ∃ getters putters,
    entities.mapM (MemoryStore.get runtime) = .ok getters ∧
    entities.mapM (MemoryStore.put runtime) = .ok putters ∧
    side.memory.impls = [{ trait := [.word Naming.storeReader], methods := getters },
      { trait := [.word Naming.storeWriter], methods := putters }] ∧
    side.reader = Interfaces.traitDecl .storeInterfaces Naming.storeReader
      " Read side of an entity store." getters ∧
    side.writer = Interfaces.traitDecl .storeInterfaces Naming.storeWriter
      " Write side of an entity store. `put_*` reports whether the entity was stored." putters := by
  obtain ⟨_, getters, putters, -, getters_ok, putters_ok, -, -, -, -, impls⟩ :=
    Generated.MemoryStore.of_typeDecl side.memory_ok
  obtain ⟨gets, gets_ok, reader⟩ := Generated.Interfaces.of_storeReader side.reader_ok
  obtain ⟨puts, puts_ok, writer⟩ := Generated.Interfaces.of_storeWriter side.writer_ok
  obtain rfl : getters = gets := Except.ok.inj (getters_ok.symm.trans gets_ok)
  obtain rfl : putters = puts := Except.ok.inj (putters_ok.symm.trans puts_ok)
  exact ⟨getters, putters, getters_ok, putters_ok, impls, reader, writer⟩

theorem names_decls (side : StoreSide runtime entities) :
    side.decls.map TypeDecl.name = Naming.storeTypes := by
  obtain ⟨_, _, _, -, -, -, memory, -⟩ := Generated.MemoryStore.of_typeDecl side.memory_ok
  obtain ⟨_, -, reader⟩ := Generated.Interfaces.of_storeReader side.reader_ok
  obtain ⟨_, -, writer⟩ := Generated.Interfaces.of_storeWriter side.writer_ok
  simp only [decls, List.map_cons, memory, reader, writer]
  rfl

theorem placements_decls (side : StoreSide runtime entities) :
    side.decls.map TypeDecl.placement = List.replicate 8 .store := by
  obtain ⟨_, _, _, -, -, -, -, memory, -⟩ := Generated.MemoryStore.of_typeDecl side.memory_ok
  obtain ⟨_, -, reader⟩ := Generated.Interfaces.of_storeReader side.reader_ok
  obtain ⟨_, -, writer⟩ := Generated.Interfaces.of_storeWriter side.writer_ok
  simp only [decls, List.map_cons, memory, reader, writer]
  rfl

theorem placement_of_mem {side : StoreSide runtime entities} {decl : TypeDecl}
    (member : decl ∈ side.decls) : decl.placement = .store := by
  refine List.eq_of_mem_replicate (n := 8) ?_
  rw [← placements_decls side]
  exact List.mem_map_of_mem member

end StoreSide
end EntityGen
