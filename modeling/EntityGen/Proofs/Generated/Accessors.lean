import EntityGen.Proofs.Generated.Members
import EntityGen.Proofs.Resolve.Partition

/-! The check of accessor names. Only the names of one family are compared, that of the getters;
they are alike when the stems are, and so are the names of every other family. No two families
share a name, and none has a name that a type declares for itself. -/
namespace EntityGen

open Generated

variable {runtime : Path} {entities : List Entity} {part : Part}

namespace Entity

theorem apart_iff : Apart entities ↔ (entities.map fun entity => Naming.stem entity.name).Nodup := by
  simp only [Apart, List.Nodup, List.pairwise_map, ne_eq, Naming.getMethod_inj]

/-- The entity `second` is the first one whose stem an earlier one has, which is `first`. -/
def FirstShared (entities : List Entity) (first second : Entity) : Prop :=
  ∃ before after, entities = before ++ second :: after ∧ Apart before ∧ first ∈ before ∧
    Naming.stem first.name = Naming.stem second.name

end Entity

theorem firstShared_of_sharedAccessor? {earlier : List Entity} {first second : Entity}
    (apart : Entity.Apart earlier) (found : sharedAccessor? earlier entities = some (first, second)) :
    Entity.FirstShared (earlier ++ entities) first second := by
  induction entities generalizing earlier with
  | nil => cases found
  | cons entity rest ih =>
    unfold sharedAccessor? at found
    split at found
    next owner taken =>
      obtain ⟨rfl, rfl⟩ := Prod.mk.inj (Option.some.inj found)
      have same : Naming.getMethod owner.name = Naming.getMethod entity.name := by
        simpa using List.find?_some taken
      exact ⟨earlier, rest, rfl, apart, List.mem_of_find?_eq_some taken, Naming.getMethod_inj.mp same⟩
    next free =>
      rw [List.append_cons]
      refine ih (Entity.apart_append_singleton.mpr ⟨apart, fun first member same => ?_⟩) found
      exact List.find?_eq_none.mp free first member (by simpa using same)

def Part.sharedBy (part : Part) (first second : Entity) : PartError :=
  .clash (.accessor part (Naming.getMethod second.name).text first.type.text second.type.text
    second.spec.pos)

namespace Part

theorem checkAccessors_eq_ok_iff : part.checkAccessors entities = .ok () ↔ Entity.Apart entities := by
  rw [checkAccessors_eq, ← accessorClash?_eq_none_iff part]
  cases part.accessorClash? entities <;> simp

theorem of_checkAccessors_eq_error {error : PartError}
    (failed : part.checkAccessors entities = .error error) :
    ∃ first second, Entity.FirstShared entities first second ∧ error = part.sharedBy first second := by
  unfold checkAccessors at failed
  split at failed
  next => cases failed
  next first second found =>
    have none : Entity.Apart [] := List.nodup_nil
    exact ⟨first, second, firstShared_of_sharedAccessor? none found, (Except.error.inj failed).symm⟩

end Part

namespace TypeDecl

def variants (decl : TypeDecl) : List VariantDecl :=
  match decl.shape with
  | .enum variants => variants
  | .struct _ | .trait _ => []

/-- The members of a type have names of their own. Only references are made by methods of one
name, and these are of different traits. -/
structure NamesApart (decl : TypeDecl) : Prop where
  fields : (decl.fields.map FieldDecl.name).Nodup
  variants : (decl.variants.map VariantDecl.name).Nodup
  methods : decl.name ≠ Naming.entityRef → (decl.methods.map Method.name).Nodup
  impls : ∀ impl ∈ decl.impls, (impl.methods.map Method.name).Nodup

/-- A type without variants whose methods all have names of their own. -/
theorem namesApart_of_methods {decl : TypeDecl} (fields : (decl.fields.map FieldDecl.name).Nodup)
    (variants : decl.variants = []) (methods : (decl.methods.map Method.name).Nodup) :
    decl.NamesApart where
  fields := fields
  variants := by simp [variants]
  methods _ := methods
  impls impl member := by
    refine methods.sublist (List.Sublist.map _ ?_)
    rw [TypeDecl.methods, List.flatMap_def]
    exact (List.sublist_flatten_of_mem (List.mem_map_of_mem member)).trans
      (List.sublist_append_right _ _)

end TypeDecl

namespace Generated

theorem MemoryStore.names_get {getters : List Method}
    (done : entities.mapM (MemoryStore.get runtime) = .ok getters) :
    getters.map Method.name = entities.map fun entity => Naming.getMethod entity.name := by
  refine map_of_mapM done fun entity method made => ?_
  obtain ⟨_, -, rfl⟩ := MemoryStore.of_get made
  rfl

theorem MemoryStore.names_put {putters : List Method}
    (done : entities.mapM (MemoryStore.put runtime) = .ok putters) :
    putters.map Method.name = entities.map fun entity => Naming.putMethod entity.name := by
  refine map_of_mapM done fun entity method made => ?_
  obtain ⟨_, -, rfl⟩ := MemoryStore.of_put made
  rfl

theorem MemoryStore.namesApart {memory : TypeDecl} (apart : Entity.Apart entities)
    (done : MemoryStore.typeDecl runtime entities = .ok memory) : memory.NamesApart := by
  obtain ⟨fields, getters, putters, -, getters_ok, putters_ok, -, -, shape, inherent, impls⟩ :=
    MemoryStore.of_typeDecl done
  refine TypeDecl.namesApart_of_methods (nodup_fields apart done) (by simp [TypeDecl.variants, shape]) ?_
  have names : memory.methods.map Method.name = [Naming.plain "new"] ++
      (entities.map (fun entity => Naming.getMethod entity.name) ++
        entities.map fun entity => Naming.putMethod entity.name) := by
    simp [TypeDecl.methods, shape, inherent, impls, names_get getters_ok, names_put putters_ok,
      constructor]
  have gets := apart.nodup_map fun _ _ => Naming.getMethod_inj.mp
  have puts := apart.nodup_map fun _ _ => Naming.putMethod_inj.mp
  rw [names]
  refine Naming.nodup_append [some 'n'] (by decide) ?_ (by decide) ?_
  · exact Naming.nodup_append [some 'g'] gets puts (by simp) (by simp)
  · simp [or_imp, forall_and]

theorem Interfaces.namesApart_traitDecl {name : Ident} {summary : String} {methods : List Method}
    (distinct : (methods.map Method.name).Nodup) :
    (traitDecl part name summary methods).NamesApart := by
  refine TypeDecl.namesApart_of_methods List.nodup_nil rfl ?_
  have names : (traitDecl part name summary methods).methods.map Method.name =
      methods.map Method.name := by
    simp [TypeDecl.methods, traitDecl, Method.signature, Function.comp_def]
  rwa [names]

theorem EntityRef.namesApart (distinct : (entities.map Entity.name).Nodup) :
    (EntityRef.typeDecl runtime entities).NamesApart where
  fields := List.nodup_nil
  variants := by
    rwa [TypeDecl.variants, typeDecl, List.map_map]
  methods other := absurd rfl other
  impls impl member := by
    -- An implementation has one method, if it has any.
    have few : impl.methods.length ≤ 1 := by
      simp only [typeDecl, List.mem_append, List.mem_cons, List.not_mem_nil, or_false,
        List.mem_flatMap, fromImpls] at member
      obtain (rfl | rfl | rfl) | ⟨entity, -, rfl | rfl⟩ := member <;> simp [fromImpl]
    refine List.nodup_iff_count_le_one.mpr fun name => ?_
    refine Nat.le_trans List.count_le_length ?_
    rwa [List.length_map]

theorem Repository.namesApart (apart : Entity.Apart entities) :
    (Repository.typeDecl runtime entities).NamesApart :=
  TypeDecl.namesApart_of_methods (show (StoreList.all.map StoreList.name).Nodup by decide) rfl
    (nodup_methods apart)

theorem RepositoryBuilder.namesApart : RepositoryBuilder.typeDecl.NamesApart :=
  TypeDecl.namesApart_of_methods (show (StoreList.all.map StoreList.name).Nodup by decide) rfl
    (by decide)

end Generated

/-- The types of a part of the store side have members with names of their own. -/
theorem Part.namesApart_of_decls {group : List TypeDecl} (stored : part.inStore)
    (distinct : (entities.map Entity.name).Nodup) (done : part.decls runtime entities = .ok group) :
    ∀ decl ∈ group, decl.NamesApart := by
  have apart := apart_of_decls stored done
  have gets := apart.nodup_map fun _ _ => Naming.getMethod_inj.mp
  have puts := apart.nodup_map fun _ _ => Naming.putMethod_inj.mp
  cases part with
  | entity => cases stored
  | store =>
    obtain ⟨memory, memory_ok, rfl⟩ := store_decls done
    simpa using MemoryStore.namesApart apart memory_ok
  | repository =>
    obtain rfl := repository_decls done
    simpa using ⟨Repository.namesApart apart, RepositoryBuilder.namesApart⟩
  | storeInterfaces =>
    obtain ⟨reader, writer, reader_ok, writer_ok, rfl⟩ := storeInterfaces_decls done
    obtain ⟨getters, getters_ok, rfl⟩ := Interfaces.of_storeReader reader_ok
    obtain ⟨putters, putters_ok, rfl⟩ := Interfaces.of_storeWriter writer_ok
    rw [← MemoryStore.names_get getters_ok] at gets
    rw [← MemoryStore.names_put putters_ok] at puts
    simpa using ⟨Interfaces.namesApart_traitDecl gets, Interfaces.namesApart_traitDecl puts⟩
  | repositoryInterfaces =>
    obtain rfl := repositoryInterfaces_decls done
    have reads : ((entities.map (Get.method runtime)).map Method.name).Nodup := by
      rwa [List.map_map]
    have writes : ((entities.map Put.method).map Method.name).Nodup := by
      rwa [List.map_map]
    simpa using ⟨EntityRef.namesApart distinct, Interfaces.namesApart_traitDecl reads,
      Interfaces.namesApart_traitDecl writes⟩

theorem Naming.byIdField_inj {x y : Ident} : byIdField x = byIdField y ↔ stem x = stem y := by
  constructor
  · intro same
    simp only [byIdField] at same
    split at same <;> split at same
    · simpa [plain] using same
    · cases same
    · cases same
    · simpa using same
  · intro same
    simp only [byIdField, same]

/-- What the check of accessor names finds, and what it keeps apart. -/
structure AccessorCheck (runtime : Path) (part : Part) (entities : List Entity) : Prop where
  ok_iff : part.checkAccessors entities = .ok () ↔
    (entities.map fun entity => Naming.stem entity.name).Nodup
  /-- The error names the first two entities that share a stem. They share a field of the store. -/
  error : ∀ error, part.checkAccessors entities = .error error → ∃ first second,
    Entity.FirstShared entities first second ∧ error = part.sharedBy first second ∧
      Naming.byIdField first.name = Naming.byIdField second.name
  byIdFields : part.checkAccessors entities = .ok () →
    (entities.map fun entity => Naming.byIdField entity.name).Nodup
  members : part.checkAccessors entities = .ok () → ∀ stored : Part, stored.inStore →
    ∀ group, stored.decls runtime entities = .ok group → ∀ decl ∈ group, decl.NamesApart

/-- The check of one family of names is exact, and it is enough for all of them. -/
theorem accessor_check_exact (runtime : Path) (part : Part) (entities : List Entity)
    (distinct : (entities.map Entity.name).Nodup) : AccessorCheck runtime part entities where
  ok_iff := Part.checkAccessors_eq_ok_iff.trans Entity.apart_iff
  error error failed := by
    obtain ⟨first, second, shared, rfl⟩ := Part.of_checkAccessors_eq_error failed
    obtain ⟨-, -, -, -, -, same⟩ := id shared
    exact ⟨first, second, shared, rfl, Naming.byIdField_inj.mpr same⟩
  byIdFields passed :=
    (Part.checkAccessors_eq_ok_iff.mp passed).nodup_map fun _ _ => Naming.byIdField_inj.mp
  members _ _ stored _ done := Part.namesApart_of_decls stored distinct done

/-! Three types, of which the first and the last share their stem. -/
namespace Spellings

def specs : List Spec :=
  ["FooBar", "Foo", "Foo_bar"].map fun name =>
    { Users.declared [] Users.number [] with typeName := ⟨name, false⟩ }

def resolved : List Entity := (Resolution.ofSpecs specs).entities

/-- The types differ, and the check finds that their methods do not. -/
theorem spellings_share_stem :
    (resolved.map Entity.name).Nodup ∧
      (∀ runtime, AccessorCheck runtime .repository resolved) ∧
      Part.repository.checkAccessors resolved =
        .error (.clash (.accessor .repository "get_foo_bar" "FooBar" "Foo_bar" .none)) := by
  have distinct : (resolved.map Entity.name).Nodup := by decide
  exact ⟨distinct, fun runtime => accessor_check_exact runtime .repository resolved distinct, by decide⟩

end Spellings
end EntityGen
