import EntityGen.Proofs.Generated.ReadBack
import EntityGen.Proofs.Execution.Rebuilding
import EntityGen.Proofs.Generated.Members
import EntityGen.Proofs.Generated.StoreSide

/-! All generated bodies are legible: no loop, condition or choice in them has a struct in its head,
and what they assign to is a field. -/
namespace EntityGen

open Generated

variable {runtime : Path} {entity : Entity} {entities : List Entity} {source : Expr}

def Method.Legible (method : Method) : Prop :=
  ∀ body ∈ method.body, Body.All Node.Legible body

@[simp] theorem Expr.legible_self : self.All Node.Legible := by simp [self, Node.Legible]

@[simp] theorem Expr.exposes_self : self.exposes = false := rfl

namespace Generated.Put

theorem legible_walk : (type : ResolvedType) → (source : Expr) → (loops : Nat) →
    source.All Node.Legible → source.exposes = false →
    Body.All Node.Legible (walk type source loops).1
  | .entity target, source, _, legible, _ => by
    simp [walk, store, Node.Legible, Expr.cloned, legible]
  | .list _ elem, source, loops, legible, bare => by
    have inner := legible_walk elem (.name (Naming.itemVar loops)) (loops + 1)
      (by simp [Node.Legible]) rfl
    rw [walk]
    split
    · simp [Node.Legible, Expr.get, Expr.exposes, bare, legible, inner]
    · exact Body.all_nil
  | .map _ key value, source, loops, legible, bare => by
    have keys := fun loops x => legible_walk key (.name x) loops (by simp [Node.Legible]) rfl
    have values := fun loops x => legible_walk value (.name x) loops (by simp [Node.Legible]) rfl
    rw [walk]
    split
    · simp [Node.Legible, Expr.get, Expr.exposes, bare, legible, keys, values]
    · simp [Node.Legible, Expr.get, Expr.exposes, bare, legible, keys]
    · simp [Node.Legible, Expr.get, Expr.exposes, bare, legible, values]
    · exact Body.all_nil
  | .leaf _, _, _, _, _ | .other _ _, _, _, _, _ => Body.all_nil

theorem legible_walkAll (properties : List Property) (loops : Nat) :
    Body.All Node.Legible (walkAll properties loops) := by
  induction properties generalizing loops with
  | nil => exact Body.all_nil
  | cons property rest ih =>
    have source : ((Expr.name entityVar).call (Naming.getter property.name) []).All
        Node.Legible := by
      simp [Node.Legible]
    exact Body.all_append.mpr ⟨legible_walk property.resolved _ loops source rfl, ih _⟩

theorem legible_method (entity : Entity) : (method entity).Legible := by
  rintro _ ⟨⟩
  simp [body, legible_walkAll, Node.Legible, Expr.borrow]

end Generated.Put

namespace Generated.Get

theorem legible_idOf (legible : source.All Node.Legible) :
    (idOf runtime source).All Node.Legible := by
  simp [idOf, Expr.borrow, Node.Legible, legible]

theorem legible_reconciled (runtime : Path) {cached latest : Expr} (first : cached.All Node.Legible)
    (second : latest.All Node.Legible) :
    (reconciled runtime cached latest).All Node.Legible := by
  simp [reconciled, Node.Legible, first, second]

theorem legible_element (runtime : Path)
    {inner : Expr → Ident → Counters → Body × Counters} (type : ResolvedType)
    (rebuilt : ∀ copy counters, Body.All Node.Legible (inner source copy counters).1)
    (legible : source.All Node.Legible) (counters : Counters) :
    Body.All Node.Legible (element runtime inner type source counters).1 ∧
      (element runtime inner type source counters).2.1.All Node.Legible := by
  by_cases direct : ∃ target, type = .entity target
  · obtain ⟨target, rfl⟩ := direct
    have fetched : (Expr.self.call (Naming.readMethod target.name) [idOf runtime source]).All
        Node.Legible := by
      simp [Node.Legible, legible_idOf legible]
    exact ⟨Body.all_nil, legible_reconciled runtime legible fetched⟩
  · rw [element_of_container fun target same => direct ⟨target, same⟩]
    split
    · exact ⟨rebuilt _ _, by simp [Node.Legible]⟩
    · exact ⟨Body.all_nil, by simp [Expr.cloned, Node.Legible, legible]⟩

theorem legible_rebuild (runtime : Path) : (type : ResolvedType) → (source : Expr) →
    (copy : Ident) → (counters : Counters) → source.All Node.Legible → source.exposes = false →
    Body.All Node.Legible (rebuild runtime type source copy counters).1
  | .list kind elem, source, copy, counters, legible, bare => by
    have item : (Expr.name (Naming.itemVar counters.loops)).All Node.Legible := by
      simp [Node.Legible]
    have inner := legible_element runtime elem
      (fun copy counters => legible_rebuild runtime elem _ copy counters item rfl) item
      { counters with loops := counters.loops + 1 }
    simp [rebuild, freshCopy, grow, Node.Legible, Expr.get, Expr.exposes, bare, legible, inner]
  | .map kind key value, source, copy, counters, legible, bare => by
    have name : ∀ x, (Expr.name x).All Node.Legible := by simp [Node.Legible]
    have keys := fun x => legible_element runtime key
      (fun copy counters => legible_rebuild runtime key _ copy counters (name x) rfl) (name x)
    have values := fun x => legible_element runtime value
      (fun copy counters => legible_rebuild runtime value _ copy counters (name x) rfl) (name x)
    simp [rebuild, freshCopy, grow, Node.Legible, Expr.get, Expr.exposes, bare, legible, keys,
      values]
  | .leaf _, _, _, _, _, _ | .entity _, _, _, _, _, _ | .other _ _, _, _, _, _, _ => Body.all_nil

theorem legible_property (runtime : Path) (property : Property) (counters : Counters) :
    Body.All Node.Legible (Get.property runtime property counters).1 ∧
      (Get.property runtime property counters).2.1.All Node.Legible := by
  have cached : ((Expr.name cachedVar).call (Naming.getter property.name) []).All
      Node.Legible := by
    simp [Node.Legible]
  unfold Get.property
  split
  next target resolved =>
    have fetched : (Expr.self.call (Naming.getMethod target.name) [idOf runtime
        ((Expr.name cachedVar).call (Naming.getter property.name) [])]).All Node.Legible := by
      simp [Node.Legible, legible_idOf cached]
    have read := legible_reconciled runtime cached fetched
    simp [Node.Legible, read]
  next resolved =>
    split
    · have body := legible_rebuild runtime property.resolved _ (Naming.propertyCopy property.name)
        counters cached rfl
      exact ⟨body, by simp [Node.Legible]⟩
    · simp [Expr.cloned, Node.Legible]

theorem legible_properties (runtime : Path) (properties : List Property) (counters : Counters) :
    Body.All Node.Legible (Get.properties runtime properties counters).1 ∧
      ∀ value ∈ (Get.properties runtime properties counters).2, value.All Node.Legible := by
  induction properties generalizing counters with
  | nil => exact ⟨Body.all_nil, nofun⟩
  | cons property rest ih =>
    obtain ⟨body, value⟩ := legible_property runtime property counters
    obtain ⟨bodies, values⟩ := ih (Get.property runtime property counters).2.2
    exact ⟨Body.all_append.mpr ⟨body, bodies⟩, List.forall_mem_cons.mpr ⟨value, values⟩⟩

theorem legible_method (runtime : Path) (entity : Entity) : (method runtime entity).Legible := by
  rintro _ ⟨⟩
  unfold body
  split
  · obtain ⟨bodies, values⟩ := legible_properties runtime entity.properties {}
    simpa [rebuilding, read, Node.Legible, Expr.exposes, bodies] using values
  · simp [read, Node.Legible]

end Generated.Get

namespace Generated.MemoryStore

variable {method : Method}

theorem legible_get (done : get runtime entity = .ok method) : method.Legible := by
  obtain ⟨field, -, rfl⟩ := of_get done
  rintro _ ⟨⟩
  simp [Node.Legible, Expr.get]

theorem legible_put (done : put runtime entity = .ok method) : method.Legible := by
  obtain ⟨field, -, rfl⟩ := of_put done
  rintro _ ⟨⟩
  simp [Node.Legible, Expr.get, Expr.borrow]

theorem legible_constructor : constructor.Legible := by
  rintro _ ⟨⟩
  simp [Node.Legible]

theorem legible_methods {memory : TypeDecl} (done : typeDecl runtime entities = .ok memory) :
    ∀ method ∈ memory.methods, method.Legible := by
  obtain ⟨fields, -, done⟩ := ok_of_bind done
  obtain ⟨getters, getters_ok, done⟩ := ok_of_bind done
  obtain ⟨putters, putters_ok, done⟩ := ok_of_bind done
  obtain rfl := Except.ok.inj done
  have gets : ∀ method ∈ getters, method.Legible :=
    forall_of_mapM getters_ok fun _ _ _ done => legible_get done
  have puts : ∀ method ∈ putters, method.Legible :=
    forall_of_mapM putters_ok fun _ _ _ done => legible_put done
  simpa [TypeDecl.methods, legible_constructor] using List.forall_mem_append.mpr ⟨gets, puts⟩

end Generated.MemoryStore

namespace Generated.Repository

theorem legible_read (runtime : Path) (entity : Entity) : (read runtime entity).Legible := by
  rintro _ ⟨⟩
  simp [Node.Legible, Expr.get, Expr.exposes, Expr.isDisjunction]

theorem legible_write (entity : Entity) : (write entity).Legible := by
  rintro _ ⟨⟩
  simp [Node.Legible, Expr.get, Expr.exposes, Expr.borrow]

theorem legible_constructor : constructor.Legible := by
  rintro _ ⟨⟩
  simp [Node.Legible]

theorem legible_builderMethod : builderMethod.Legible := by
  rintro _ ⟨⟩
  simp [Node.Legible]

theorem legible_defaultMethod : defaultMethod.Legible := by
  rintro _ ⟨⟩
  simp [Node.Legible, Expr.get]

theorem legible_methods (runtime : Path) (entities : List Entity) :
    ∀ method ∈ (typeDecl runtime entities).methods, method.Legible := by
  have access : ∀ method ∈ entities.flatMap fun entity => [read runtime entity, write entity],
      method.Legible := by
    intro method member
    obtain ⟨entity, -, member⟩ := List.mem_flatMap.mp member
    rcases List.mem_pair.mp member with rfl | rfl
    · exact legible_read runtime entity
    · exact legible_write entity
  have gets : ∀ method ∈ entities.map (Get.method runtime), method.Legible :=
    List.forall_mem_map.mpr fun entity _ => Get.legible_method runtime entity
  have puts : ∀ method ∈ entities.map Put.method, method.Legible :=
    List.forall_mem_map.mpr fun entity _ => Put.legible_method entity
  have own : ∀ method ∈ (typeDecl runtime entities).inherent, method.Legible :=
    List.forall_mem_cons.mpr ⟨legible_constructor,
      List.forall_mem_cons.mpr ⟨legible_builderMethod, access⟩⟩
  refine List.forall_mem_append.mpr ⟨List.forall_mem_append.mpr ⟨nofun, own⟩, ?_⟩
  intro method member
  obtain ⟨impl, inside, member⟩ := List.mem_flatMap.mp member
  simp only [typeDecl, List.mem_cons, List.not_mem_nil, or_false] at inside
  rcases inside with rfl | rfl | rfl
  · exact List.eq_of_mem_singleton member ▸ legible_defaultMethod
  · exact gets method member
  · exact puts method member

end Generated.Repository

namespace Generated.RepositoryBuilder

theorem legible_setter (list : StoreList) : (setter list).Legible := by
  rintro _ ⟨⟩
  simp [Node.Legible, Expr.get, Expr.isPlace]

theorem legible_build : build.Legible := by
  rintro _ ⟨⟩
  simp [Node.Legible, Expr.get, Expr.exposes, isEmpty, fill, Expr.isCompound]

theorem legible_methods : ∀ method ∈ typeDecl.methods, method.Legible := by
  have setters : ∀ method ∈ StoreList.all.map setter, method.Legible :=
    List.forall_mem_map.mpr fun list _ => legible_setter list
  refine List.forall_mem_append.mpr ⟨List.forall_mem_append.mpr ⟨nofun, ?_⟩, nofun⟩
  exact List.forall_mem_append.mpr ⟨setters, List.forall_mem_singleton.mpr legible_build⟩

end Generated.RepositoryBuilder

/-- A trait has no bodies. -/
theorem Generated.Interfaces.legible_methods {part : Part} {name : Ident} {summary : String}
    {methods : List Method} : ∀ method ∈ (traitDecl part name summary methods).methods,
      method.Legible := by
  refine List.forall_mem_append.mpr ⟨List.forall_mem_append.mpr ⟨?_, nofun⟩, nofun⟩
  exact List.forall_mem_map.mpr fun _ _ => nofun

namespace Generated.EntityRef

theorem legible_value {pattern : Code} {value : Expr} (legible : value.All Node.Legible) :
    Body.All Node.Legible (Arm.value pattern value).body := by
  simp [Arm.value, Arm.body, Node.Legible, legible]

theorem legible_choice {code : Code} {arms : List Arm}
    (legible : ∀ arm ∈ arms, Body.All Node.Legible arm.body) :
    Body.All Node.Legible [.ret (.choice (.literal code) arms)] := by
  simpa [Node.Legible, Expr.exposesInside, Expr.exposes] using legible

theorem legible_entityType (runtime : Path) (entities : List Entity) :
    (entityType runtime entities).Legible := by
  rintro _ ⟨⟩
  exact legible_choice (List.forall_mem_map.mpr fun _ _ => legible_value (by simp [Node.Legible]))

theorem legible_eqMethod (entities : List Entity) : (eqMethod entities).Legible := by
  rintro _ ⟨⟩
  refine legible_choice (List.forall_mem_append.mpr ⟨?_, ?_⟩)
  · exact List.forall_mem_map.mpr fun _ _ => legible_value (by simp [Node.Legible])
  · exact List.forall_mem_singleton.mpr (legible_value (by simp [Node.Legible]))

theorem legible_hashMethod (runtime : Path) (entities : List Entity) :
    (hashMethod runtime entities).Legible := by
  rintro _ ⟨⟩
  refine legible_choice (List.forall_mem_map.mpr fun _ _ => ?_)
  simp [Node.Legible, Arm.body, Expr.borrow]

theorem legible_fromImpls (entity : Entity) :
    ∀ impl ∈ fromImpls entity, ∀ method ∈ impl.methods, method.Legible := by
  have converted : ∀ type content, content.All Node.Legible →
      ∀ method ∈ (fromImpl entity type content).methods, method.Legible := by
    intro type content legible
    refine List.forall_mem_singleton.mpr ?_
    rintro _ ⟨⟩
    simp [Node.Legible, legible]
  exact List.forall_mem_cons.mpr ⟨converted _ _ (by simp [Node.Legible]),
    List.forall_mem_singleton.mpr (converted _ _ (by simp [Node.Legible]))⟩

theorem legible_methods (runtime : Path) (entities : List Entity) :
    ∀ method ∈ (typeDecl runtime entities).methods, method.Legible := by
  have own : ∀ method ∈ (typeDecl runtime entities).inherent, method.Legible :=
    List.forall_mem_singleton.mpr (legible_entityType runtime entities)
  refine List.forall_mem_append.mpr ⟨List.forall_mem_append.mpr ⟨nofun, own⟩, ?_⟩
  intro method member
  obtain ⟨impl, inside, member⟩ := List.mem_flatMap.mp member
  rcases List.mem_append.mp inside with fixed | converting
  · simp only [List.mem_cons, List.not_mem_nil, or_false] at fixed
    rcases fixed with rfl | rfl | rfl
    · exact List.eq_of_mem_singleton member ▸ legible_eqMethod entities
    · cases member
    · exact List.eq_of_mem_singleton member ▸ legible_hashMethod runtime entities
  · obtain ⟨entity, -, converting⟩ := List.mem_flatMap.mp converting
    exact legible_fromImpls entity impl converting method member

end Generated.EntityRef

namespace Entity

theorem legible_methods (entity : Entity) (runtime : Path) :
    ∀ method ∈ (entity.typeDecl runtime).methods, method.Legible := by
  have getters : ∀ method ∈ entity.properties.map getter, method.Legible := by
    refine List.forall_mem_map.mpr fun property _ => ?_
    rintro _ ⟨⟩
    simp [Node.Legible, Expr.borrow]
  have constructor : entity.constructor.Legible := by
    rintro _ ⟨⟩
    simp [Node.Legible]
  have id : entity.idMethod.Legible := by
    rintro _ ⟨⟩
    simp [Node.Legible, Expr.borrow, Expr.cloned]
  refine List.forall_mem_append.mpr
    ⟨List.forall_mem_append.mpr ⟨List.forall_mem_nil _, ?_⟩, ?_⟩
  · exact List.forall_mem_cons.mpr ⟨constructor, getters⟩
  · exact List.forall_mem_singleton.mpr id

end Entity

/-- Whatever is generated is legible. -/
theorem Part.legible_decls {part : Part} {group : List TypeDecl}
    (done : part.decls runtime entities = .ok group) :
    ∀ decl ∈ group, ∀ method ∈ decl.methods, method.Legible := by
  cases part with
  | entity =>
    obtain rfl := Except.ok.inj done
    exact List.forall_mem_map.mpr fun entity _ => entity.legible_methods runtime
  | store =>
    obtain ⟨memory, memory_ok, rfl⟩ := store_decls done
    exact List.forall_mem_singleton.mpr (MemoryStore.legible_methods memory_ok)
  | repository =>
    obtain rfl := repository_decls done
    exact List.forall_mem_cons.mpr ⟨Repository.legible_methods runtime entities,
      List.forall_mem_singleton.mpr RepositoryBuilder.legible_methods⟩
  | storeInterfaces =>
    obtain ⟨reader, writer, reader_ok, writer_ok, rfl⟩ := storeInterfaces_decls done
    obtain ⟨getters, -, rfl⟩ := Interfaces.of_storeReader reader_ok
    obtain ⟨putters, -, rfl⟩ := Interfaces.of_storeWriter writer_ok
    exact List.forall_mem_cons.mpr ⟨Interfaces.legible_methods,
      List.forall_mem_singleton.mpr Interfaces.legible_methods⟩
  | repositoryInterfaces =>
    obtain rfl := repositoryInterfaces_decls done
    exact List.forall_mem_cons.mpr ⟨EntityRef.legible_methods runtime entities,
      List.forall_mem_cons.mpr ⟨Interfaces.legible_methods,
        List.forall_mem_singleton.mpr Interfaces.legible_methods⟩⟩

/-- What is written of a body is read back as that body, so that bodies which are written alike are
the same; only a literal that is a single word is not told from the name. All bodies that are
generated are of this kind. -/
theorem Body.reads_back :
    (∀ (role : Role) (body : Body), Body.All Node.Legible body →
      Mark.code (Body.marks role body) = Body.code role body ∧
        Body.read role (Body.marks role body) = some (Body.named body) ∧
        ∀ other, Body.All Node.Legible other → Body.marks role other = Body.marks role body →
          Body.named other = Body.named body) ∧
    ∀ (part : Part) (runtime : Path) (entities : List Entity) (group : List TypeDecl),
      part.decls runtime entities = .ok group →
        ∀ decl ∈ group, ∀ method ∈ decl.methods, method.Legible := by
  have read : ∀ role body, Body.All Node.Legible body →
      Body.read role (Body.marks role body) = some (Body.named body) := by
    intro role body legible
    have read := Body.readable_of_forall role body (Body.readable_all body legible)
      (8 * (Body.marks role body).length + 8) [] (by omega) rfl
    rw [List.append_nil] at read
    rw [Body.read, read]
  refine ⟨fun role body legible => ⟨Body.code_marks role body, read role body legible, ?_⟩,
    fun part runtime entities group done => Part.legible_decls done⟩
  intro other otherLegible same
  have first := read role other otherLegible
  rw [same, read role body legible] at first
  exact (Option.some.inj first).symm

namespace Search

def done : Ident := Naming.plain "done"

/-- A return inside of a condition is written as one, the last one is not. -/
def body : Body :=
  [.branch (.holds (.not (.name done))) [.ret (.literal Code.absent)] none,
    .ret (.invoke Code.present [.literal [.literal "1"]])]

theorem reads_back_search :
    (Body.All Node.Legible body ∧ Body.read .method (Body.marks .method body) = some body ∧
      ∀ other, Body.All Node.Legible other →
        Body.marks .method other = Body.marks .method body → Body.named other = body) ∧
    Generated.RepositoryBuilder.build.Legible := by
  have named : Body.named body = body := rfl
  obtain ⟨reads, generated⟩ := Body.reads_back
  have legible : Body.All Node.Legible body := by simp [body, Node.Legible, Expr.exposes]
  obtain ⟨-, read, only⟩ := reads .method body legible
  rw [named] at read only
  have build := generated .repository ⟨false, []⟩ [] _ rfl
    Generated.RepositoryBuilder.typeDecl (by simp) Generated.RepositoryBuilder.build
    (by simp [TypeDecl.methods, Generated.RepositoryBuilder.typeDecl])
  exact ⟨⟨legible, read, only⟩, build⟩

end Search
end EntityGen
