import EntityGen.Proofs.Generated.Bodies

/-! The types of the store module as a whole. All that they are made of is closed: their bodies, the
heads of their methods, their fields and attributes. -/
namespace EntityGen

open Generated

variable {scope : Scope} {known : Code.Known}

theorem Body.Sound.closed {body : List Stmt} (sound : Body.Sound scope known body) :
    Body.All (Node.Closed known) body := fun node member => (sound node member).2

theorem Body.Sound.resolves {body : List Stmt} (sound : Body.Sound scope known body) :
    Body.All (Node.Resolves scope) body := fun node member => (sound node member).1

/-- All that stands in a method is closed, and its body finds what it refers to. -/
structure Method.Sound (scope : Scope) (known : Code.Known) (method : Method) : Prop where
  attrs : ∀ code ∈ method.attrs, Code.Closed known code
  name : Code.Closed known [.word method.name]
  generics : Code.Closed known method.generics
  params : ∀ param ∈ method.params,
    Code.Closed known [.word param.1] ∧ Code.Whole known param.2
  result : ∀ code ∈ method.result, Code.Closed known code
  body : ∀ body ∈ method.body, Body.Sound scope known body

theorem Receiver.closed_codes (receiver : Receiver) :
    ∀ code ∈ receiver.codes, Code.Closed known code := by
  have self : Code.Closed known [.plain "self"] := .token (by decide) .nil
  cases receiver with
  | absent => nofun
  | ref => simpa [codes] using Code.closed_punct _ self
  | refMut => simpa [codes] using Code.closed_punct _ (Code.closed_plain _ (by decide) self)
  | value => simp [codes]
  | mutValue => simpa [codes] using Code.closed_plain _ (by decide) self

namespace Method.Sound

variable {method : Method}

theorem head (sound : method.Sound scope known) : Code.Closed known method.head := by
  have first := Code.closed_word sound.name sound.generics
  refine (first.append (Code.whole_commas ?_).within).append ?_
  · refine List.forall_mem_append.mpr ⟨fun code member => ?_, fun code member => ?_⟩
    · exact (method.receiver.closed_codes code member).whole
    · obtain ⟨⟨name, type⟩, inside, rfl⟩ := List.mem_map.mp member
      obtain ⟨named, typed⟩ := sound.params _ inside
      exact (Code.closed_word named (Code.closed_punct ':' .nil)).append_whole typed
  · cases found : method.result with
    | none => exact .nil
    | some type => exact (Code.closed_sign _).append (sound.result type found)

theorem code (sound : method.Sound scope known) : Code.Closed known method.code := by
  have attrs := Code.closed_flatten sound.attrs
  unfold Method.code
  split
  next body found =>
    have inner := Body.closed_code .method body (sound.body body found).closed
    have visible : Code.Closed known (if method.isPublic then [.plain "pub"] else []) := by
      split
      · exact Code.closed_plain _ (by decide) .nil
      · exact .nil
    have first := Code.closed_plain "fn" (by decide) sound.head
    exact ((attrs.append visible).append first).append (Code.closed_within inner)
  next =>
    have first := Code.closed_plain "fn" (by decide) sound.head
    exact (attrs.append first).append (Code.closed_punct _ .nil)

theorem signature {other : Scope} (sound : method.Sound scope known) :
    method.signature.Sound other known :=
  { sound with attrs := nofun, body := nofun }

end Method.Sound

/-- All that stands in an implementation of a trait is closed, and its bodies find what they refer
to. -/
structure ImplDecl.Sound (scope : Scope) (known : Code.Known) (impl : ImplDecl) : Prop where
  attrs : ∀ code ∈ impl.attrs, Code.Closed known code
  trait : Code.Closed known impl.trait
  items : ∀ code ∈ impl.items, Code.Closed known code
  methods : ∀ method ∈ impl.methods, method.Sound scope known

structure FieldDecl.Closed (known : Code.Known) (field : FieldDecl) : Prop where
  attrs : ∀ code ∈ field.attrs, Code.Closed known code
  name : Code.Closed known [.word field.name]
  type : Code.Closed known field.type

structure VariantDecl.Closed (known : Code.Known) (variant : VariantDecl) : Prop where
  attrs : ∀ code ∈ variant.attrs, Code.Closed known code
  name : Code.Closed known [.word variant.name]
  payload : Code.Closed known variant.payload

def TypeShape.Sound (scope : Scope) (known : Code.Known) : TypeShape → Prop
  | struct fields => ∀ field ∈ fields, field.Closed known
  | enum variants => ∀ variant ∈ variants, variant.Closed known
  | trait methods => ∀ method ∈ methods, method.Sound scope known

structure TypeDecl.Sound (scope : Scope) (known : Code.Known) (decl : TypeDecl) : Prop where
  vis : Code.Closed known decl.vis
  attrs : ∀ code ∈ decl.attrs, Code.Closed known code
  name : Code.Closed known [.word decl.name]
  shape : decl.shape.Sound scope known
  inherent : ∀ method ∈ decl.inherent, method.Sound scope known
  impls : ∀ impl ∈ decl.impls, impl.Sound scope known

theorem TypeShape.Sound.content {shape : TypeShape} (sound : shape.Sound scope known) :
    Code.Closed known shape.content := by
  cases shape with
  | struct fields =>
    refine Code.closed_commas (List.forall_mem_map.mpr fun field member => ?_)
    obtain ⟨attrs, name, type⟩ := sound field member
    exact (Code.closed_flatten attrs).append (Code.closed_word name (Code.closed_punct _ type))
  | enum variants =>
    refine Code.closed_commas (List.forall_mem_map.mpr fun variant member => ?_)
    obtain ⟨attrs, name, payload⟩ := sound variant member
    exact (Code.closed_flatten attrs).append (Code.closed_word name (Code.closed_within payload))
  | trait methods => exact Code.closed_flatMap fun method member => (sound method member).code

theorem ImplDecl.Sound.code {impl : ImplDecl} (sound : impl.Sound scope known) {type : Ident}
    (name : Code.Closed known [.word type]) : Code.Closed known (impl.code type) := by
  have methods := Code.closed_flatMap fun method member => (sound.methods method member).code
  have body := (Code.closed_flatten sound.items).append methods
  have first := (Code.closed_flatten sound.attrs).append
    (Code.closed_plain "impl" (by decide) sound.trait)
  exact (first.append (Code.closed_plain "for" (by decide) name)).append (Code.closed_within body)

/-- The code of a declaration is closed if what it is made of is. -/
theorem TypeDecl.Sound.code {decl : TypeDecl} (sound : decl.Sound scope known) :
    Code.Closed known decl.code := by
  have methods := Code.closed_flatMap fun method member => (sound.inherent method member).code
  have impls := Code.closed_flatMap fun impl member => (sound.impls impl member).code sound.name
  have word : Code.Closed known [.plain decl.shape.word, .word decl.name] := by
    have other : decl.shape.word ≠ "super" := by cases decl.shape <;> simp [TypeShape.word]
    exact Code.closed_plain _ other sound.name
  have inherent : Code.Closed known (if decl.inherent.isEmpty then []
      else [.plain "impl", .word decl.name] ++
        Code.within .curly (decl.inherent.flatMap Method.code)) := by
    split
    · exact .nil
    · exact (Code.closed_plain "impl" (by decide) sound.name).append (Code.closed_within methods)
  have first := ((Code.closed_flatten sound.attrs).append sound.vis).append word
  exact ((first.append (Code.closed_within sound.shape.content)).append inherent).append impls

theorem TypeDecl.Sound.methods {decl : TypeDecl}
    (sound : decl.Sound scope known) : ∀ method ∈ decl.methods, method.Sound scope known := by
  refine List.forall_mem_append.mpr ⟨List.forall_mem_append.mpr ⟨?_, sound.inherent⟩, ?_⟩
  · have shape := sound.shape
    cases same : decl.shape with
    | struct | enum => nofun
    | trait methods =>
      rw [same] at shape
      exact shape
  · intro method member
    obtain ⟨impl, inside, member⟩ := List.mem_flatMap.mp member
    exact (sound.impls impl inside).methods method member

/-- All that code in the store module refers to for some entities is known. -/
structure Code.Known.Covers (known : Code.Known) (runtime : Path) (entities : List Entity) :
    Prop where
  runs : known.Runs runtime
  reaches : ∀ entity ∈ entities, known.Reaches entity.type
  names : ∀ entity ∈ entities, Code.Closed known [.word entity.name]
  properties : ∀ entity ∈ entities, ∀ property ∈ entity.properties,
    Code.Closed known [.word property.name]

variable {runtime : Path} {entities : List Entity} {entity : Entity} {method : Method}

namespace Code.Known.Reaches

variable {type : EntityType}

theorem whole_idRef (reaches : known.Reaches type) (runs : known.Runs runtime) :
    Code.Whole known (type.idRef runtime) :=
  (Code.closed_punct _ (reaches.closed_idType runs)).whole

end Code.Known.Reaches

namespace Generated.MemoryStore

theorem method_sound_get (runs : known.Runs runtime) (reaches : known.Reaches entity.type)
    (held : ∀ field, Naming.byIdField entity.name = .ok field → scope.field field)
    (done : get runtime entity = .ok method) : method.Sound scope known := by
  have body : ∀ body ∈ method.body, Body.Sound scope known body := sound_get held done
  obtain ⟨field, -, rfl⟩ := of_get done
  exact {
    attrs := nofun
    name := Code.closed_getMethod
    generics := .nil
    params := by simp [idVar, reaches.whole_idRef runs]
    result := by simp [reaches.closed_found]
    body }

theorem method_sound_put (runs : known.Runs runtime) (reaches : known.Reaches entity.type)
    (held : ∀ field, Naming.byIdField entity.name = .ok field → scope.field field)
    (done : put runtime entity = .ok method) : method.Sound scope known := by
  have body := sound_put runs held done
  obtain ⟨field, -, rfl⟩ := of_put done
  exact {
    attrs := nofun
    name := Code.closed_putMethod
    generics := .nil
    params := by simp [entityVar, reaches.closed_shared.whole]
    result := by simp
    body }

theorem method_sound_constructor : constructor.Sound scope known where
  attrs := nofun
  name := Code.closed_name_plain (by decide)
  generics := .nil
  params := nofun
  result := by simp [constructor]
  body := sound_constructor

theorem closed_field {field : FieldDecl} (runs : known.Runs runtime)
    (reaches : known.Reaches entity.type) (done : MemoryStore.field runtime entity = .ok field) :
    field.Closed known := by
  obtain ⟨named, same⟩ := of_field done
  have args : Code.Closed known
      (Code.commas [entity.type.idType runtime, Code.shared entity.type.fromStore]) := by
    refine Code.closed_commas ?_
    simp [reaches.closed_idType runs, reaches.closed_shared]
  have map : Code.Closed known (Code.hashMap.applied
      (Code.commas [entity.type.idType runtime, Code.shared entity.type.fromStore])) :=
    Code.closed_applied (Code.closed_rooted (by decide)) args
  rw [same]
  exact ⟨nofun, Code.closed_byIdField named,
    Code.closed_applied (Code.closed_rooted (by decide)) map⟩

theorem sound_typeDecl {memory : TypeDecl} (covers : known.Covers runtime entities)
    (held : ∀ entity ∈ entities, ∀ field, Naming.byIdField entity.name = .ok field →
      scope.field field)
    (done : typeDecl runtime entities = .ok memory) : memory.Sound scope known := by
  obtain ⟨fields, fields_ok, done⟩ := ok_of_bind done
  obtain ⟨getters, getters_ok, done⟩ := ok_of_bind done
  obtain ⟨putters, putters_ok, done⟩ := ok_of_bind done
  obtain rfl := Except.ok.inj done
  have gets : ∀ method ∈ getters, method.Sound scope known :=
    forall_of_mapM getters_ok fun entity inside _ done =>
      method_sound_get covers.runs (covers.reaches entity inside) (held entity inside) done
  have puts : ∀ method ∈ putters, method.Sound scope known :=
    forall_of_mapM putters_ok fun entity inside _ done =>
      method_sound_put covers.runs (covers.reaches entity inside) (held entity inside) done
  have reader : Code.Closed known [.word Naming.storeReader] := by simp [Naming.storeReader]
  have writer : Code.Closed known [.word Naming.storeWriter] := by simp [Naming.storeWriter]
  exact {
    vis := by simp
    attrs := by simp
    name := by simp [Naming.memoryStore]
    shape := forall_of_mapM fields_ok fun entity inside _ done =>
      closed_field covers.runs (covers.reaches entity inside) done
    inherent := List.forall_mem_singleton.mpr method_sound_constructor
    impls := List.forall_mem_cons.mpr
      ⟨⟨nofun, reader, nofun, gets⟩, List.forall_mem_singleton.mpr ⟨nofun, writer, nofun, puts⟩⟩ }

end Generated.MemoryStore

namespace Generated.StoreList

variable {list : StoreList}

theorem closed_item (member : list ∈ all) : Code.Closed known list.item := by
  have other : ∀ list ∈ all, list.trait ≠ ⟨"super", false⟩ := by decide
  have trait : Code.Closed known [.word list.trait] :=
    .token (fun same => other list member (Token.word.inj same)) .nil
  exact (Code.closed_plain "dyn" (by decide) trait).whole.shared

theorem closed_type (member : list ∈ all) : Code.Closed known list.type :=
  Code.closed_applied (Code.closed_rooted (by decide)) (closed_item member)

theorem closed_fields : ∀ field ∈ all.map StoreList.field, field.Closed known :=
  List.forall_mem_map.mpr fun _ member => ⟨nofun, closed_name member, closed_type member⟩

end Generated.StoreList

namespace Generated.Repository

theorem method_sound_read (runs : known.Runs runtime) (reaches : known.Reaches entity.type)
    (held : scope.field StoreList.readers.name)
    (stored : scope.store .readers (Naming.getMethod entity.name) 1) :
    (read runtime entity).Sound scope known where
  attrs := nofun
  name := Code.closed_readMethod
  generics := .nil
  params := by simp [read, idVar, reaches.whole_idRef runs]
  result := by simp [read, reaches.closed_found]
  body := sound_read held stored

theorem method_sound_write (reaches : known.Reaches entity.type)
    (held : scope.field StoreList.writers.name)
    (stored : scope.store .writers (Naming.putMethod entity.name) 1) :
    (write entity).Sound scope known where
  attrs := nofun
  name := Code.closed_writeMethod
  generics := .nil
  params := by simp [write, entityVar, reaches.closed_shared.whole]
  result := nofun
  body := sound_write held stored

theorem method_sound_constructor : constructor.Sound scope known where
  attrs := nofun
  name := Code.closed_name_plain (by decide)
  generics := .nil
  params := List.forall_mem_map.mpr fun _ member =>
    ⟨StoreList.closed_name member, (StoreList.closed_type member).whole⟩
  result := by simp [constructor]
  body := sound_constructor

theorem method_sound_builderMethod : builderMethod.Sound scope known where
  attrs := nofun
  name := Code.closed_name_plain (by decide)
  generics := .nil
  params := nofun
  result := by simp [builderMethod, Naming.repositoryBuilder]
  body := sound_builderMethod

theorem method_sound_defaultMethod : defaultMethod.Sound scope known where
  attrs := nofun
  name := Code.closed_name_plain (by decide)
  generics := .nil
  params := nofun
  result := by simp [defaultMethod]
  body := sound_defaultMethod

theorem method_sound_get (runs : known.Runs runtime) (reaches : known.Reaches entity.type)
    (own : scope.Serves entity.type)
    (names : ∀ property ∈ entity.properties, Code.Closed known [.word property.name])
    (served : ∀ property ∈ entity.properties, ∀ target ∈ property.resolved.targets,
      scope.Serves target) : (Get.method runtime entity).Sound scope known where
  attrs := nofun
  name := Code.closed_getMethod
  generics := .nil
  params := by simp [Get.method, Get.idVar, reaches.whole_idRef runs]
  result := by simp [Get.method, reaches.closed_found]
  body := by
    rintro _ ⟨⟩
    exact Get.sound_body runs reaches own names served

theorem method_sound_put (reaches : known.Reaches entity.type) (own : scope.Serves entity.type)
    (names : ∀ property ∈ entity.properties, Code.Closed known [.word property.name])
    (served : ∀ property ∈ entity.properties, ∀ target ∈ property.resolved.targets,
      scope.Serves target) : (Put.method entity).Sound scope known where
  attrs := nofun
  name := Code.closed_putMethod
  generics := .nil
  params := by simp [Put.method, Put.entityVar, reaches.whole]
  result := by
    have set : Code.Closed known (Code.hashSet.applied [.word Naming.entityRef]) :=
      Code.closed_applied (Code.closed_rooted (by decide)) (by simp [Naming.entityRef])
    simp [Put.method, set]
  body := by
    rintro _ ⟨⟩
    exact Put.sound_body own names served

theorem sound_typeDecl (covers : known.Covers runtime entities)
    (held : ∀ list ∈ StoreList.all, scope.field list.name)
    (own : ∀ entity ∈ entities, scope.Serves entity.type)
    (served : ∀ entity ∈ entities, ∀ property ∈ entity.properties,
      ∀ target ∈ property.resolved.targets, scope.Serves target)
    (read : ∀ entity ∈ entities, scope.store .readers (Naming.getMethod entity.name) 1)
    (written : ∀ entity ∈ entities, scope.store .writers (Naming.putMethod entity.name) 1) :
    (typeDecl runtime entities).Sound scope known := by
  have access : ∀ method ∈ entities.flatMap fun entity =>
      [Repository.read runtime entity, write entity], method.Sound scope known := by
    intro method member
    obtain ⟨entity, inside, member⟩ := List.mem_flatMap.mp member
    have reaches := covers.reaches entity inside
    rcases List.mem_pair.mp member with rfl | rfl
    · exact method_sound_read covers.runs reaches (held _ (by decide)) (read entity inside)
    · exact method_sound_write reaches (held _ (by decide)) (written entity inside)
  have gets : ∀ method ∈ entities.map (Get.method runtime), method.Sound scope known :=
    List.forall_mem_map.mpr fun entity inside => method_sound_get covers.runs
      (covers.reaches entity inside) (own entity inside) (covers.properties entity inside)
      (served entity inside)
  have puts : ∀ method ∈ entities.map Put.method, method.Sound scope known :=
    List.forall_mem_map.mpr fun entity inside => method_sound_put (covers.reaches entity inside)
      (own entity inside) (covers.properties entity inside) (served entity inside)
  have reader : Code.Closed known [.word Naming.repositoryReader] := by
    simp [Naming.repositoryReader]
  have writer : Code.Closed known [.word Naming.repositoryWriter] := by
    simp [Naming.repositoryWriter]
  have default : Code.Closed known (Code.rooted ["std", "default", "Default"]) :=
    Code.closed_rooted (by decide)
  exact {
    vis := by simp [typeDecl]
    attrs := by simp [typeDecl]
    name := by simp [typeDecl, Naming.repository]
    shape := StoreList.closed_fields
    inherent := List.forall_mem_cons.mpr ⟨method_sound_constructor,
      List.forall_mem_cons.mpr ⟨method_sound_builderMethod, access⟩⟩
    impls := List.forall_mem_cons.mpr
      ⟨⟨nofun, default, nofun, List.forall_mem_singleton.mpr method_sound_defaultMethod⟩,
        List.forall_mem_cons.mpr ⟨⟨nofun, reader, nofun, gets⟩,
          List.forall_mem_singleton.mpr ⟨nofun, writer, nofun, puts⟩⟩⟩ }

end Generated.Repository

namespace Generated.RepositoryBuilder

theorem method_sound_setter {list : StoreList} (member : list ∈ StoreList.all)
    (held : scope.field list.name) : (setter list).Sound scope known where
  attrs := nofun
  name := Code.closed_of_char '_' (by simp [setter, Naming.plain]) (by decide)
  generics := .nil
  params := by
    have item : Code.Closed known ([.plain "Item", .punct '='] ++ list.item) :=
      Code.closed_plain _ (by decide) (Code.closed_punct _ (StoreList.closed_item member))
    have given : Code.Closed known (Code.applied (Code.rooted ["std", "iter", "IntoIterator"])
        ([.plain "Item", .punct '='] ++ list.item)) :=
      Code.closed_applied (Code.closed_rooted (by decide)) item
    refine List.forall_mem_singleton.mpr ⟨StoreList.closed_name member, ?_⟩
    exact (Code.closed_plain "impl" (by decide) given).whole
  result := by simp [setter]
  body := sound_setter member held

theorem method_sound_build (held : ∀ list ∈ StoreList.all, scope.field list.name) :
    build.Sound scope known where
  attrs := nofun
  name := Code.closed_name_plain (by decide)
  generics := .nil
  params := nofun
  result := by simp [build, Naming.repository]
  body := sound_build held

theorem sound_typeDecl (held : ∀ list ∈ StoreList.all, scope.field list.name) :
    typeDecl.Sound scope known where
  vis := by simp [typeDecl]
  attrs := by simp [typeDecl]
  name := by simp [typeDecl, Naming.repositoryBuilder]
  shape := StoreList.closed_fields
  inherent := List.forall_mem_append.mpr
    ⟨List.forall_mem_map.mpr fun _ member => method_sound_setter member (held _ member),
      List.forall_mem_singleton.mpr (method_sound_build held)⟩
  impls := nofun

end Generated.RepositoryBuilder

/-- A trait that declares sound methods is sound, whatever their bodies refer to. -/
theorem Generated.Interfaces.sound_traitDecl {part : Part} {name : Ident} {summary : String}
    {methods : List Method} {own : Scope} (closed : Code.Closed known [.word name])
    (sound : ∀ method ∈ methods, method.Sound own known) :
    (traitDecl part name summary methods).Sound scope known where
  vis := by simp [traitDecl]
  attrs := by simp [traitDecl]
  name := closed
  shape := List.forall_mem_map.mpr fun method member => (sound method member).signature
  inherent := nofun
  impls := nofun

namespace Generated.EntityRef

theorem impl_sound_fromImpl {type : Code} {source : Expr}
    (name : Code.Closed known [.word entity.name]) (whole : Code.Whole known type)
    (sound : source.Sound scope known) : (fromImpl entity type source).Sound scope known where
  attrs := nofun
  trait := whole.applied (Code.closed_rooted (by decide))
  items := nofun
  methods := List.forall_mem_singleton.mpr {
    attrs := nofun
    name := Code.closed_name_plain (by decide)
    generics := .nil
    params := by simp [entityVar, whole]
    result := by simp
    body := List.forall_mem_singleton.mp (sound_fromImpl type name sound) }

theorem sound_fromImpls (reaches : known.Reaches entity.type)
    (name : Code.Closed known [.word entity.name]) :
    ∀ impl ∈ fromImpls entity, impl.Sound scope known := by
  have made : (Expr.invoke Code.newShared [.name entityVar]).Sound scope known := by
    simp [entityVar]
  have given : (Expr.name entityVar).Sound scope known := by simp [entityVar]
  exact List.forall_mem_cons.mpr ⟨impl_sound_fromImpl name reaches.whole made,
    List.forall_mem_singleton.mpr (impl_sound_fromImpl name reaches.closed_shared.whole given)⟩

theorem method_sound_entityType (covers : known.Covers runtime entities) :
    (entityType runtime entities).Sound scope known where
  attrs := by simp [entityType]
  name := Code.closed_name_plain (by decide)
  generics := .nil
  params := nofun
  result := by
    have type : Code.Closed known [.punct '&', .lifetime "\x27static", .plain "str"] :=
      Code.closed_punct _ (Code.closed_lifetime (by simp))
    simp [entityType, type]
  body := sound_entityType covers.runs covers.reaches covers.names

theorem method_sound_eqMethod (covers : known.Covers runtime entities) :
    (eqMethod entities).Sound scope known where
  attrs := by simp [eqMethod]
  name := Code.closed_name_plain (by decide)
  generics := .nil
  params := List.forall_mem_singleton.mpr
    ⟨Code.closed_name_plain (by decide), (Code.closed_punct _ Code.closed_itself).whole⟩
  result := by simp [eqMethod]
  body := sound_eqMethod covers.names

theorem method_sound_hashMethod (covers : known.Covers runtime entities) :
    (hashMethod runtime entities).Sound scope known where
  attrs := nofun
  name := Code.closed_name_plain (by decide)
  generics := by
    have hasher : Code.Closed known (Code.rooted ["std", "hash", "Hasher"]) :=
      Code.closed_rooted (by decide)
    have bound := Code.closed_plain "H" (by decide) (Code.closed_punct ':' hasher)
    exact Code.closed_applied .nil bound
  params := by
    have state : Code.Closed known [.punct '&', .plain "mut", .plain "H"] :=
      Code.closed_punct _ (Code.closed_plain _ (by decide) (by simp))
    simp [hashMethod, stateVar, state.whole]
  result := nofun
  body := sound_hashMethod covers.runs covers.reaches covers.names

theorem sound_typeDecl (covers : known.Covers runtime entities) :
    (typeDecl runtime entities).Sound scope known := by
  have variants : ∀ variant ∈ entities.map (fun entity : Entity => ({
      name := entity.name, payload := Code.shared entity.type.fromStore } : VariantDecl)),
      variant.Closed known :=
    List.forall_mem_map.mpr fun entity inside =>
      ⟨nofun, covers.names entity inside, (covers.reaches entity inside).closed_shared⟩
  have froms : ∀ impl ∈ entities.flatMap fromImpls, impl.Sound scope known := by
    intro impl member
    obtain ⟨entity, inside, member⟩ := List.mem_flatMap.mp member
    exact sound_fromImpls (covers.reaches entity inside) (covers.names entity inside) impl member
  have equal : ImplDecl.Sound scope known
      { trait := Code.rooted ["std", "cmp", "PartialEq"], methods := [eqMethod entities] } :=
    ⟨nofun, Code.closed_rooted (by decide), nofun,
      List.forall_mem_singleton.mpr (method_sound_eqMethod covers)⟩
  have total : ImplDecl.Sound scope known { trait := Code.rooted ["std", "cmp", "Eq"] } :=
    ⟨nofun, Code.closed_rooted (by decide), nofun, nofun⟩
  have hashed : ImplDecl.Sound scope known
      { trait := Code.rooted ["std", "hash", "Hash"], methods := [hashMethod runtime entities] } :=
    ⟨nofun, Code.closed_rooted (by decide), nofun,
      List.forall_mem_singleton.mpr (method_sound_hashMethod covers)⟩
  exact {
    vis := by simp [typeDecl]
    attrs := by simp [typeDecl]
    name := by simp [typeDecl, Naming.entityRef]
    shape := variants
    inherent := List.forall_mem_singleton.mpr (method_sound_entityType covers)
    impls := List.forall_mem_append.mpr ⟨by simp [equal, total, hashed], froms⟩ }

end Generated.EntityRef
end EntityGen
