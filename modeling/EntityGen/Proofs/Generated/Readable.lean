import EntityGen.Proofs.Generated.Spelled
import EntityGen.Proofs.Grammar.Items

/-! All types of the store module can be read: their fields, their variants, the heads of their
methods and the bodies of these. -/
namespace EntityGen

open Code Generated

variable {runtime : Path} {entity : Entity} {entities : List Entity} {method : Method}

namespace Method

/-- A method without attributes and generics can be read by its types and its body. -/
theorem readable_of (bare : method.attrs = []) (plain : method.generics = [])
    (free : method.name.isKeyword = false)
    (params : ∀ param ∈ method.params, param.1.isKeyword = false ∧ IsType param.2)
    (result : ∀ type ∈ method.result, IsType type) (written : method.Written) :
    method.Readable where
  attrs := by simp [bare]
  free := free
  generics := .inl plain
  params := params
  result := result
  body := written.isBody

theorem Readable.signature (readable : method.Readable) : method.signature.Readable where
  attrs := List.forall_mem_nil _
  free := readable.free
  generics := readable.generics
  params := readable.params
  result := readable.result
  body := by rintro _ ⟨⟩

end Method

theorem Code.isType_itself : IsType itself := isType_word (by decide)

namespace Generated.MemoryStore

theorem readable_field {field : FieldDecl} (plain : IsPath runtime.code) (named : entity.Named)
    (done : MemoryStore.field runtime entity = .ok field) : field.Readable := by
  obtain ⟨spelled, same⟩ := of_field done
  have args : ∀ code ∈ [entity.type.idType runtime, shared entity.type.fromStore], IsArg code :=
    List.forall_mem_cons.mpr ⟨(named.type.isType_idType plain).isArg,
      List.forall_mem_singleton.mpr (isType_shared named.type.isType_fromStore).isArg⟩
  have map := @isTypePath_generic ["std", "collections"] "HashMap" _ (by simp [keywords])
    (List.cons_ne_nil _ _) args
  have cell := @isTypePath_of_arg ["std", "cell"] "RefCell" _ (by simp [keywords]) map.isType.isArg
  rw [same]
  exact ⟨List.forall_mem_nil _, Naming.isKeyword_byIdField spelled, cell.isType⟩

theorem readable_get (plain : IsPath runtime.code) (named : entity.Named)
    (done : get runtime entity = .ok method) : method.Readable := by
  obtain ⟨field, spelled, rfl⟩ := of_get done
  refine Method.readable_of rfl rfl Naming.isKeyword_getMethod ?_ ?_ ?_
  · exact List.forall_mem_singleton.mpr
      ⟨Ident.isKeyword_of_unlisted (by simp [keywords]), named.type.isType_idRef plain⟩
  · rintro _ ⟨⟩
    exact named.type.isType_found
  · rintro _ ⟨⟩
    simp [Node.Readable, Expr.get, Naming.isKeyword_byIdField spelled,
      idVar, Naming.plain, keywords]

theorem readable_put (plain : IsPath runtime.code) (named : entity.Named)
    (done : put runtime entity = .ok method) : method.Readable := by
  obtain ⟨field, spelled, rfl⟩ := of_put done
  have target : IsOperand [.punct '*', .word ⟨"entity", false⟩] :=
    ((isPath_word (.inl (by decide))).isAtom (by decide)).isChain.isOperand.signed (by decide)
  have stored : Node.Readable (.expr (.literal [.plain "true"])) :=
    ⟨(isAtom_truth (by decide)).isChain.isOperand, by decide⟩
  refine Method.readable_of rfl rfl Naming.isKeyword_putMethod ?_ ?_ ?_
  · exact List.forall_mem_singleton.mpr
      ⟨Ident.isKeyword_of_unlisted (by simp [keywords]), isType_shared named.type.isType_fromStore⟩
  · rintro _ ⟨⟩
    exact isType_word (by decide)
  · rintro _ ⟨⟩
    simpa [Node.Readable, Expr.get, Expr.borrow, target,
      Naming.isKeyword_byIdField spelled, idVar, entityVar, Naming.plain,
      keywords, Path.isFunction_idFunction plain] using stored

theorem readable_constructor : constructor.Readable := by
  refine Method.readable_of rfl rfl (by decide) (List.forall_mem_nil _) ?_ ?_
  · rintro _ ⟨⟩
    exact isType_itself
  · rintro _ ⟨⟩
    simp [Node.Readable]

theorem readable_typeDecl {memory : TypeDecl} (plain : IsPath runtime.code)
    (named : ∀ entity ∈ entities, entity.Named)
    (done : typeDecl runtime entities = .ok memory) : memory.Readable := by
  obtain ⟨fields, fields_ok, done⟩ := ok_of_bind done
  obtain ⟨getters, getters_ok, done⟩ := ok_of_bind done
  obtain ⟨putters, putters_ok, done⟩ := ok_of_bind done
  obtain rfl := Except.ok.inj done
  have field : ∀ field ∈ fields, field.Readable :=
    forall_of_mapM fields_ok fun entity inside _ done =>
      readable_field plain (named entity inside) done
  have gets : ∀ method ∈ getters, method.Readable :=
    forall_of_mapM getters_ok fun entity inside _ done =>
      readable_get plain (named entity inside) done
  have puts : ∀ method ∈ putters, method.Readable :=
    forall_of_mapM putters_ok fun entity inside _ done =>
      readable_put plain (named entity inside) done
  have derived : IsAttribute (Code.derive [[.plain "Debug"], [.plain "Default"]]) :=
    isAttribute_derive (by simp [Loose, Token.plain])
  refine ⟨?_, .inr rfl, Ident.isKeyword_of_unlisted (by simp [keywords]), field,
    List.forall_mem_singleton.mpr readable_constructor, ?_⟩
  · simp [isAttribute_doc, derived]
  · refine List.forall_mem_cons.mpr ⟨⟨List.forall_mem_nil _, ?_, rfl, gets⟩,
      List.forall_mem_singleton.mpr ⟨List.forall_mem_nil _, ?_, rfl, puts⟩⟩
    · exact (isPath_word (by decide)).isTypePath
    · exact (isPath_word (by decide)).isTypePath

end Generated.MemoryStore

namespace Generated.Interfaces

theorem readable_traitDecl {part : Part} {name : Ident} {summary : String}
    {methods : List Method} (free : name.isKeyword = false)
    (readable : ∀ method ∈ methods, method.Readable) :
    (traitDecl part name summary methods).Readable where
  attrs := List.forall_mem_singleton.mpr (isAttribute_doc summary)
  vis := .inr rfl
  free := free
  shape := List.forall_mem_map.mpr fun method member => (readable method member).signature
  inherent := List.forall_mem_nil _
  impls := List.forall_mem_nil _

theorem readable_storeReader {reader : TypeDecl} (plain : IsPath runtime.code)
    (named : ∀ entity ∈ entities, entity.Named)
    (done : storeReader runtime entities = .ok reader) : reader.Readable := by
  obtain ⟨methods, methods_ok, rfl⟩ := of_storeReader done
  exact readable_traitDecl (by decide) (forall_of_mapM methods_ok fun entity inside _ made =>
    MemoryStore.readable_get plain (named entity inside) made)

theorem readable_storeWriter {writer : TypeDecl} (plain : IsPath runtime.code)
    (named : ∀ entity ∈ entities, entity.Named)
    (done : storeWriter runtime entities = .ok writer) : writer.Readable := by
  obtain ⟨methods, methods_ok, rfl⟩ := of_storeWriter done
  exact readable_traitDecl (by decide) (forall_of_mapM methods_ok fun entity inside _ made =>
    MemoryStore.readable_put plain (named entity inside) made)

end Generated.Interfaces

theorem Generated.Get.readable_method (plain : IsPath runtime.code) (named : entity.Named) :
    (Get.method runtime entity).Readable := by
  refine Method.readable_of rfl rfl Naming.isKeyword_getMethod ?_ ?_ (written_method plain named)
  · exact List.forall_mem_singleton.mpr
      ⟨Ident.isKeyword_of_unlisted (by simp [keywords]), named.type.isType_idRef plain⟩
  · rintro _ ⟨⟩
    exact named.type.isType_found

theorem Generated.Put.readable_method (named : entity.Named) : (Put.method entity).Readable := by
  refine Method.readable_of rfl rfl Naming.isKeyword_putMethod ?_ ?_ (written_method named)
  · exact List.forall_mem_singleton.mpr
      ⟨Ident.isKeyword_of_unlisted (by simp [keywords]), named.type.isType_fromStore⟩
  · rintro _ ⟨⟩
    exact (@isTypePath_of_arg ["std", "collections"] "HashSet" _ (by simp [keywords])
      (isType_word (by decide)).isArg).isType

namespace Generated.StoreList

def Named (list : StoreList) : Prop := list.name.isKeyword = false ∧ list.trait.isKeyword = false

theorem named_of_mem : ∀ list ∈ StoreList.all, list.Named := by
  unfold Named
  decide

variable {list : StoreList}

theorem Named.isType_item (named : list.Named) : IsType list.item :=
  isType_shared ((isPath_word (.inl named.2)).isTypePath.isType_trait (.inl rfl))

theorem Named.isType_type (named : list.Named) : IsType list.type :=
  (@isTypePath_of_arg ["std", "vec"] "Vec" _ (by simp [keywords]) named.isType_item.isArg).isType

theorem readable_fields : ∀ field ∈ StoreList.all.map StoreList.field, field.Readable :=
  List.forall_mem_map.mpr fun list member =>
    ⟨List.forall_mem_nil _, (named_of_mem list member).1, (named_of_mem list member).isType_type⟩

end Generated.StoreList

namespace Generated.Repository

theorem readable_read (plain : IsPath runtime.code) (named : entity.Named) :
    (read runtime entity).Readable := by
  have absent : Node.Readable (.expr (.literal Code.absent)) :=
    Node.readable_path (isPath_rooted (by simp [keywords])) (by decide) (by decide)
  refine Method.readable_of rfl rfl Naming.isKeyword_readMethod ?_ ?_ ?_
  · exact List.forall_mem_singleton.mpr
      ⟨Ident.isKeyword_of_unlisted (by simp [keywords]), named.type.isType_idRef plain⟩
  · rintro _ ⟨⟩
    exact named.type.isType_found
  · rintro _ ⟨⟩
    simpa [Node.Readable, Expr.get, Expr.isCompound, Binding.words,
      StoreList.readers, idVar, Naming.plain, keywords] using absent

theorem readable_write (named : entity.Named) : (write entity).Readable := by
  refine Method.readable_of rfl rfl Naming.isKeyword_writeMethod ?_ (by rintro _ ⟨⟩) ?_
  · exact List.forall_mem_singleton.mpr
      ⟨Ident.isKeyword_of_unlisted (by simp [keywords]), isType_shared named.type.isType_fromStore⟩
  · rintro _ ⟨⟩
    simp [Node.Readable, Expr.get, Expr.borrow, Binding.words,
      StoreList.writers, entityVar, Naming.plain, keywords]

theorem readable_constructor : constructor.Readable where
  attrs := List.forall_mem_nil _
  free := by decide
  generics := .inl rfl
  params := List.forall_mem_map.mpr fun list member =>
    ⟨(StoreList.named_of_mem list member).1, (StoreList.named_of_mem list member).isType_type⟩
  result := by
    rintro _ ⟨⟩
    exact isType_itself
  body := by
    rintro _ ⟨⟩
    exact Body.isBody_construct ⟨isPath_word (by decide), by decide⟩
      (List.forall_mem_map.mpr fun list member => (StoreList.named_of_mem list member).1)

theorem readable_builderMethod : builderMethod.Readable := by
  refine Method.readable_of rfl rfl (by decide) (List.forall_mem_nil _) ?_ ?_
  · rintro _ ⟨⟩
    exact isType_word (by decide)
  · rintro _ ⟨⟩
    simp [Node.Readable]

theorem readable_defaultMethod : defaultMethod.Readable := by
  have builder : IsFunction (Code.itself.step ⟨"builder", false⟩) :=
    (isPath_word (by decide)).isFunction_step (by decide)
  refine Method.readable_of rfl rfl (by decide) (List.forall_mem_nil _) ?_ ?_
  · rintro _ ⟨⟩
    exact isType_itself
  · rintro _ ⟨⟩
    simp [Node.Readable, Expr.get, builder, keywords]

theorem readable_typeDecl (plain : IsPath runtime.code)
    (named : ∀ entity ∈ entities, entity.Named) : (typeDecl runtime entities).Readable := by
  have access : ∀ method ∈ entities.flatMap fun entity => [read runtime entity, write entity],
      method.Readable := by
    intro method member
    obtain ⟨entity, inside, member⟩ := List.mem_flatMap.mp member
    rcases List.mem_pair.mp member with rfl | rfl
    · exact readable_read plain (named entity inside)
    · exact readable_write (named entity inside)
  have gets : ∀ method ∈ entities.map (Get.method runtime), method.Readable :=
    List.forall_mem_map.mpr fun entity inside => Get.readable_method plain (named entity inside)
  have puts : ∀ method ∈ entities.map Put.method, method.Readable :=
    List.forall_mem_map.mpr fun entity inside => Put.readable_method (named entity inside)
  refine ⟨?_, .inr rfl, Ident.isKeyword_of_unlisted (by simp [keywords]),
    StoreList.readable_fields, ?_, ?_⟩
  · simp [typeDecl, isAttribute_doc]
  · exact List.forall_mem_cons.mpr ⟨readable_constructor,
      List.forall_mem_cons.mpr ⟨readable_builderMethod, access⟩⟩
  · refine List.forall_mem_cons.mpr ⟨⟨List.forall_mem_nil _, ?_, rfl,
        List.forall_mem_singleton.mpr readable_defaultMethod⟩,
      List.forall_mem_cons.mpr ⟨⟨List.forall_mem_nil _, ?_, rfl, gets⟩,
        List.forall_mem_singleton.mpr ⟨List.forall_mem_nil _, ?_, rfl, puts⟩⟩⟩
    · exact (isPath_rooted (by simp [keywords])).isTypePath
    · exact (isPath_word (by decide)).isTypePath
    · exact (isPath_word (by decide)).isTypePath

end Generated.Repository

namespace Generated.RepositoryBuilder

theorem readable_setter {list : StoreList} (named : list.Named) : (setter list).Readable := by
  have item : IsArg (.plain "Item" :: .punct '=' :: list.item) :=
    isArg_assigned (by decide) named.isType_item
  have given := @isTypePath_of_arg ["std", "iter"] "IntoIterator" _ (by simp [keywords]) item
  refine Method.readable_of rfl rfl (Naming.isKeyword_of_front (by decide) _) ?_ ?_ ?_
  · exact List.forall_mem_singleton.mpr ⟨named.1, given.isType_trait (.inr rfl)⟩
  · rintro _ ⟨⟩
    exact isType_itself
  · rintro _ ⟨⟩
    simp [Node.Readable, Expr.get, Expr.isCompound, named.1,
      keywords]

theorem readable_build : build.Readable := by
  have store : IsFunction (Code.step [.word Naming.memoryStore] ⟨"new", false⟩) :=
    (isPath_word (by decide)).isFunction_step (by decide)
  have repository : IsFunction (Code.step [.word Naming.repository] ⟨"new", false⟩) :=
    (isPath_word (by decide)).isFunction_step (by decide)
  have type : IsType (shared [.word Naming.memoryStore]) := isType_shared (isType_word (by decide))
  refine Method.readable_of rfl rfl (by decide) (List.forall_mem_nil _) ?_ ?_
  · rintro _ ⟨⟩
    exact isType_word (by decide)
  · rintro _ ⟨⟩
    simp [Node.Readable, Expr.get, isEmpty, fill, store, repository, type,
      StoreList.readers, StoreList.writers, StoreList.all, Naming.plain,
      keywords]

theorem readable_typeDecl : typeDecl.Readable := by
  have setters : ∀ method ∈ StoreList.all.map setter, method.Readable :=
    List.forall_mem_map.mpr fun list member => readable_setter (StoreList.named_of_mem list member)
  have derived : IsAttribute (Code.derive [[.plain "Default"]]) :=
    isAttribute_derive (by simp [Loose, Token.plain])
  refine ⟨?_, .inr rfl, by decide, StoreList.readable_fields, ?_, List.forall_mem_nil _⟩
  · simp [typeDecl, isAttribute_doc, derived]
  · exact List.forall_mem_append.mpr ⟨setters, List.forall_mem_singleton.mpr readable_build⟩

end Generated.RepositoryBuilder

namespace Generated.EntityRef

theorem isAtom_typeName (plain : IsPath runtime.code) (named : entity.Named) :
    IsAtom (typeName runtime entity) :=
  isAtom_qualified named.type.isType_fromStore (plain.step (by decide)) (by decide)

theorem readable_typeName (plain : IsPath runtime.code) (named : entity.Named) :
    Node.Readable (.expr (.literal (typeName runtime entity))) :=
  ⟨(isAtom_typeName plain named).isChain.isOperand, nofun⟩

theorem isPattern_variantOf {content : Code} (named : entity.Named) (known : IsPattern content) :
    IsPattern (variantOf entity content) := by
  have path : IsPath (Code.itself.step entity.name) :=
    (isPath_word (by decide)).step (.inl named.name)
  have pattern := isPattern_constructor path (.inl ⟨_, rfl⟩) (List.forall_mem_singleton.mpr known)
  rwa [commas_singleton] at pattern

theorem readable_value {pattern : Code} {value : Expr} (readable : value.All Node.Readable) :
    Body.All Node.Readable (Arm.value pattern value).body := by
  simp [Arm.value, Arm.body, Node.Readable, readable]

theorem readable_entityType (plain : IsPath runtime.code)
    (named : ∀ entity ∈ entities, entity.Named) : (entityType runtime entities).Readable where
  attrs := List.forall_mem_singleton.mpr (isAttribute_doc _)
  free := Ident.isKeyword_of_unlisted (by simp [keywords])
  generics := .inl rfl
  params := List.forall_mem_nil _
  result := by
    rintro _ ⟨⟩
    exact isType_ref (.inr (.inr ⟨_, rfl⟩)) (isType_word (.inl (by decide)))
      (by simp [Token.plain])
  body := by
    rintro _ ⟨⟩
    refine Body.isBody_choice ?_ (List.forall_mem_map.mpr fun entity inside => ⟨?_, ?_⟩)
    · exact ((isPath_word (by decide)).isAtom (by decide)).isChain.isOperand
    · exact isPattern_variantOf (named entity inside) isPattern_any
    · exact readable_value (Expr.all_literal.mpr (readable_typeName plain (named entity inside)))

theorem readable_eqMethod (named : ∀ entity ∈ entities, entity.Named) :
    (eqMethod entities).Readable where
  attrs := List.forall_mem_singleton.mpr isAttribute_allow
  free := Ident.isKeyword_of_unlisted (by simp [keywords])
  generics := .inl rfl
  params := List.forall_mem_singleton.mpr ⟨Ident.isKeyword_of_unlisted (by simp [keywords]),
    @isType_ref Code.itself [] (.inl rfl) isType_itself (by simp [Code.itself, Token.plain])⟩
  result := by
    rintro _ ⟨⟩
    exact isType_word (.inl (by decide))
  body := by
    rintro _ ⟨⟩
    have first : IsExpr [.plain "self"] :=
      ((isPath_word (by decide)).isAtom (by decide)).isChain.isOperand.isExpr
    have second : IsExpr [.plain "other"] :=
      ((isPath_word (by decide)).isAtom (by decide)).isChain.isOperand.isExpr
    have pair := isAtom_parens
      (List.forall_mem_cons.mpr ⟨first, List.forall_mem_singleton.mpr second⟩)
    have unequal : Node.Readable (.expr (.literal [.plain "false"])) :=
      ⟨(isAtom_truth (by decide)).isChain.isOperand, by decide⟩
    refine Body.isBody_choice pair.isChain.isOperand (List.forall_mem_append.mpr
      ⟨List.forall_mem_map.mpr fun entity inside => ⟨?_, readable_value ?_⟩,
        List.forall_mem_singleton.mpr
          ⟨isPattern_any, readable_value (Expr.all_literal.mpr unequal)⟩⟩)
    · have variant :=
        fun x free => isPattern_variantOf (named entity inside) (@isPattern_name x free)
      exact isPattern_tuple (List.forall_mem_cons.mpr ⟨variant firstVar (by decide),
        List.forall_mem_singleton.mpr (variant secondVar (by decide))⟩)
    · simp [Node.Readable, firstVar, secondVar, Naming.plain,
        keywords]

theorem readable_hashMethod (plain : IsPath runtime.code)
    (named : ∀ entity ∈ entities, entity.Named) : (hashMethod runtime entities).Readable where
  attrs := List.forall_mem_nil _
  free := Ident.isKeyword_of_unlisted (by simp [keywords])
  generics := .inr ⟨⟨"H", false⟩, _, by decide, (isPath_rooted (by simp [keywords])).isTypePath, rfl⟩
  params := List.forall_mem_singleton.mpr ⟨Ident.isKeyword_of_unlisted (by simp [keywords]),
    isType_ref (.inr (.inl rfl)) (isType_word (.inl (by decide)))
      (by simp [Token.plain])⟩
  result := by rintro _ ⟨⟩
  body := by
    rintro _ ⟨⟩
    refine Body.isBody_choice ?_ (List.forall_mem_map.mpr fun entity inside => ⟨?_, ?_⟩)
    · exact ((isPath_word (by decide)).isAtom (by decide)).isChain.isOperand
    · exact isPattern_variantOf (named entity inside) (isPattern_name (by decide))
    · have name := readable_typeName plain (named entity inside)
      have target : IsOperand [.punct '*', .punct '*', .word ⟨"entity", false⟩] :=
        (((isPath_word (by decide)).isAtom (by decide)).isChain.isOperand.signed
          (by decide)).signed (by decide)
      have parts := And.intro name target
      simpa [Arm.body, Node.Readable, Expr.borrow, entityVar, stateVar,
        Naming.plain, Path.isFunction_idFunction plain, keywords] using parts

theorem readable_fromImpls (named : entity.Named) : ∀ impl ∈ fromImpls entity, impl.Readable := by
  have converted : ∀ type content, IsType type → content.All Node.Readable →
      (fromImpl entity type content).Readable := by
    intro type content known readable
    have path := @isTypePath_of_arg ["std", "convert"] "From" type (by simp [keywords]) known.isArg
    have variant : IsFunction (Code.itself.step entity.name) :=
      (isPath_word (by decide)).isFunction_step (.inl named.name)
    refine ⟨List.forall_mem_nil _, path, rfl, List.forall_mem_singleton.mpr ?_⟩
    refine Method.readable_of rfl rfl (Ident.isKeyword_of_unlisted (by simp [keywords])) ?_ ?_ ?_
    · exact List.forall_mem_singleton.mpr ⟨Ident.isKeyword_of_unlisted (by simp [keywords]), known⟩
    · rintro _ ⟨⟩
      exact isType_itself
    · rintro _ ⟨⟩
      simp [Node.Readable, variant, readable]
  have free : entityVar.isKeyword = false := by decide
  refine List.forall_mem_cons.mpr ⟨converted _ _ named.type.isType_fromStore ?_,
    List.forall_mem_singleton.mpr
      (converted _ _ (isType_shared named.type.isType_fromStore) (Expr.all_name.mpr free))⟩
  simp [Node.Readable, free]

theorem readable_typeDecl (plain : IsPath runtime.code)
    (named : ∀ entity ∈ entities, entity.Named) : (typeDecl runtime entities).Readable := by
  have derived : IsAttribute (Code.derive [[.plain "Debug"], [.plain "Clone"]]) :=
    isAttribute_derive (by simp [Loose, Token.plain])
  have variants : ∀ variant ∈ entities.map fun entity =>
      ({ name := entity.name, payload := shared entity.type.fromStore } : VariantDecl),
      variant.Readable :=
    List.forall_mem_map.mpr fun entity inside =>
      ⟨List.forall_mem_nil _, (named entity inside).name,
        isType_shared (named entity inside).type.isType_fromStore⟩
  refine ⟨?_, .inr rfl, Ident.isKeyword_of_unlisted (by simp [keywords]), variants,
    List.forall_mem_singleton.mpr (readable_entityType plain named), ?_⟩
  · simp [typeDecl, isAttribute_doc, derived]
  · refine List.forall_mem_append.mpr ⟨?_, ?_⟩
    · refine List.forall_mem_cons.mpr ⟨⟨List.forall_mem_nil _, ?_, rfl,
          List.forall_mem_singleton.mpr (readable_eqMethod named)⟩,
        List.forall_mem_cons.mpr ⟨⟨List.forall_mem_nil _, ?_, rfl, List.forall_mem_nil _⟩,
          List.forall_mem_singleton.mpr ⟨List.forall_mem_nil _, ?_, rfl,
            List.forall_mem_singleton.mpr (readable_hashMethod plain named)⟩⟩⟩
      · exact (isPath_rooted (by simp [keywords])).isTypePath
      · exact (isPath_rooted (by simp [keywords])).isTypePath
      · exact (isPath_rooted (by simp [keywords])).isTypePath
    · intro impl member
      obtain ⟨entity, inside, member⟩ := List.mem_flatMap.mp member
      exact readable_fromImpls (named entity inside) impl member

end Generated.EntityRef

/-- All types of the store module can be read. -/
theorem StoreSide.readable_decls (side : StoreSide runtime entities) (plain : IsPath runtime.code)
    (named : ∀ entity ∈ entities, entity.Named) : ∀ decl ∈ side.decls, decl.Readable := by
  have gets : ∀ method ∈ entities.map (Get.method runtime), method.Readable :=
    List.forall_mem_map.mpr fun entity inside => Get.readable_method plain (named entity inside)
  have puts : ∀ method ∈ entities.map Put.method, method.Readable :=
    List.forall_mem_map.mpr fun entity inside => Put.readable_method (named entity inside)
  simp only [decls, List.forall_mem_cons, List.not_mem_nil, false_imp_iff, implies_true, and_true]
  exact ⟨MemoryStore.readable_typeDecl plain named side.memory_ok,
    Repository.readable_typeDecl plain named, RepositoryBuilder.readable_typeDecl,
    Interfaces.readable_storeReader plain named side.reader_ok,
    Interfaces.readable_storeWriter plain named side.writer_ok,
    EntityRef.readable_typeDecl plain named, Interfaces.readable_traitDecl (by decide) gets,
    Interfaces.readable_traitDecl (by decide) puts⟩

/-- The store module is read as a file. -/
theorem StoreSide.exists_items (side : StoreSide runtime entities) (plain : IsPath runtime.code)
    (named : ∀ entity ∈ entities, entity.Named) :
    ∃ items, Item.listOfCode (side.decls.flatMap TypeDecl.code) = .ok items :=
  Item.exists_listOfCode_of_readable (side.readable_decls plain named)

end EntityGen
