import EntityGen.Proofs.Execution.Rebuilding
import EntityGen.Proofs.Generated.Members
import EntityGen.Proofs.Generated.Written

/-! What the generated methods of a repository are spelled with can be read, if the library that
runs them is named by a path of names alone, and no name of a module or of a property in use is a
keyword. All other names have something in front or behind with which no keyword begins or ends. -/
namespace EntityGen

open Code Generated

@[simp] theorem Ident.isKeyword_of_unlisted {name : String}
    (other : keywords.contains name = false) : Ident.isKeyword ⟨name, false⟩ = false := by
  rw [isKeyword, other]
  rfl

@[simp] theorem Ident.isStep_of_unlisted {name : String}
    (other : keywords.contains name = false) : Ident.IsStep ⟨name, false⟩ :=
  .inl (isKeyword_of_unlisted other)

namespace Naming

def fronts : List String :=
  ["get_", "put_", "read_", "write_", "item", "key", "value", "copy", "set_"]

def backs : List String := ["_copy", "_latest", "_by_id"]

theorem front_apart : ∀ name ∈ keywords, ∀ front ∈ fronts, ¬front.toList <+: name.toList := by
  decide +kernel

theorem back_apart : ∀ name ∈ keywords, ∀ back ∈ backs, ¬back.toList <:+ name.toList := by
  decide +kernel

theorem isKeyword_of_front {front : String} (listed : front ∈ fronts) (behind : String) :
    (plain (front ++ behind)).isKeyword = false := by
  refine Bool.eq_false_iff.mpr fun keyword => ?_
  have known : front ++ behind ∈ keywords := by simpa [Ident.isKeyword, plain] using keyword
  exact front_apart _ known front listed ⟨behind.toList, by simp⟩

theorem isKeyword_of_back {back : String} (listed : back ∈ backs) (front : String) :
    (plain (front ++ back)).isKeyword = false := by
  refine Bool.eq_false_iff.mpr fun keyword => ?_
  have known : front ++ back ∈ keywords := by simpa [Ident.isKeyword, plain] using keyword
  exact back_apart _ known back listed ⟨front.toList, by simp⟩

variable {x : Ident} {number : Nat}

@[simp] theorem isKeyword_getMethod : (getMethod x).isKeyword = false :=
  isKeyword_of_front (by decide) _

@[simp] theorem isKeyword_putMethod : (putMethod x).isKeyword = false :=
  isKeyword_of_front (by decide) _

@[simp] theorem isKeyword_readMethod : (readMethod x).isKeyword = false :=
  isKeyword_of_front (by decide) _

@[simp] theorem isKeyword_writeMethod : (writeMethod x).isKeyword = false :=
  isKeyword_of_front (by decide) _

@[simp] theorem isKeyword_itemVar : (itemVar number).isKeyword = false :=
  isKeyword_of_front (by decide) _

@[simp] theorem isKeyword_keyVar : (keyVar number).isKeyword = false :=
  isKeyword_of_front (by decide) _

@[simp] theorem isKeyword_valueVar : (valueVar number).isKeyword = false :=
  isKeyword_of_front (by decide) _

@[simp] theorem isKeyword_nestedCopy : (nestedCopy number).isKeyword = false :=
  isKeyword_of_front (by decide) _

@[simp] theorem isKeyword_propertyCopy : (propertyCopy x).isKeyword = false :=
  isKeyword_of_back (by decide) _

@[simp] theorem isKeyword_propertyLatest : (propertyLatest x).isKeyword = false :=
  isKeyword_of_back (by decide) _

theorem isKeyword_byIdField {field : Ident} (named : byIdField x = .ok field) :
    field.isKeyword = false := by
  rw [byIdField_eq_ok named]
  exact isKeyword_of_back (by decide) _

end Naming

namespace Code

variable {front : List String} {last : String} {codes : List Code} {type code : Code}

theorem rooted_concat : rooted (front ++ [last]) =
    led true (below (front.map fun name => ⟨name, false⟩) [.plain last]) := by
  induction front with
  | nil => rfl
  | cons name front ih =>
    have spread : rooted (name :: front ++ [last]) =
        sign [':', ':'] ++ [.plain name] ++ rooted (front ++ [last]) := rfl
    rw [spread, ih]
    rfl

/-- Arguments may stand behind a path into the standard library. -/
theorem isTypePath_generic (free : ∀ name ∈ front ++ [last], Ident.isKeyword ⟨name, false⟩ = false)
    (some : codes ≠ []) (args : ∀ code ∈ codes, IsArg code) :
    IsTypePath ((rooted (front ++ [last])).applied (commas codes)) := by
  rw [rooted_concat]
  refine isTypePath_applied (List.forall_mem_map.mpr fun name member => .inl ?_) ?_ some args
  · exact free name (List.mem_append_left _ member)
  · exact free last List.mem_concat_self

theorem isTypePath_of_arg (free : ∀ name ∈ front ++ [last], Ident.isKeyword ⟨name, false⟩ = false)
    (arg : IsArg code) : IsTypePath ((rooted (front ++ [last])).applied code) := by
  have known := isTypePath_generic free (List.cons_ne_nil code [])
    (List.forall_mem_singleton.mpr arg)
  rwa [commas_singleton] at known

theorem isType_word {x : Ident} (step : x.IsStep) : IsType [.word x] :=
  (isPath_word step).isTypePath.isType

theorem isType_shared (known : IsType type) : IsType (shared type) :=
  (@isTypePath_of_arg ["std", "rc"] "Rc" type (by simp [keywords]) known.isArg).isType

end Code

namespace Path

variable {runtime : Path}

theorem isFunction_idFunction (plain : IsPath runtime.code) : IsFunction runtime.idFunction :=
  (plain.step (by decide)).isFunction_step (by decide)

theorem isFunction_reconcile (plain : IsPath runtime.code) : IsFunction runtime.reconcile :=
  plain.isFunction_step (by decide)

end Path

def EntityType.Named (entity : EntityType) : Prop :=
  ∀ x ∈ entity.module ++ [entity.name], x.isKeyword = false

namespace EntityType.Named

variable {entity : EntityType} {runtime : Path}

theorem isPath_fromStore (named : entity.Named) : IsPath entity.fromStore :=
  (isPath_word (by decide)).foldl_step fun x member => .inl (named x member)

theorem isType_fromStore (named : entity.Named) : IsType entity.fromStore :=
  named.isPath_fromStore.isTypePath.isType

theorem isType_idType (named : entity.Named) (plain : IsPath runtime.code) :
    IsType (entity.idType runtime) :=
  isType_qualified named.isType_fromStore (plain.step (by decide)) (by decide)

theorem isType_idRef (named : entity.Named) (plain : IsPath runtime.code) :
    IsType (entity.idRef runtime) :=
  @isType_ref (entity.idType runtime) [] (.inl rfl) (named.isType_idType plain) nofun

theorem isType_found (named : entity.Named) : IsType entity.found :=
  (@isTypePath_of_arg ["std", "option"] "Option" _ (by simp [keywords])
    (isType_shared named.isType_fromStore).isArg).isType

end EntityType.Named

/-- No name of the entity that its code contains is a keyword. Properties are read by their names
only where the entity is rebuilt. -/
structure Entity.Named (entity : Entity) : Prop where
  type : entity.type.Named
  properties : (∃ property ∈ entity.properties, property.resolved.holdsEntities) →
    ∀ property ∈ entity.properties, property.name.isKeyword = false

theorem Entity.Named.name {entity : Entity} (named : entity.Named) :
    entity.name.isKeyword = false :=
  named.type entity.name (List.mem_append_right _ List.mem_cons_self)

variable {runtime : Path} {entity : Entity} {entities : List Entity} {source : Expr}

def Method.Written (method : Method) : Prop :=
  ∀ body ∈ method.body, Body.All Node.Readable body

theorem Method.Written.isBody {method : Method} (written : method.Written) :
    ∀ body ∈ method.body, IsBody (Body.code .method body) :=
  fun body given => Body.isBody_of_all (written body given) .method

theorem Node.readable_path {code : Code} (path : IsPath code) (other : code ≠ [.plain "crate"])
    (bare : code.head? ≠ some (.punct '&')) : Node.Readable (.expr (.literal code)) :=
  ⟨(path.isAtom other).isChain.isOperand, bare⟩

@[simp] theorem Expr.readable_self : self.All Node.Readable :=
  Expr.all_literal.mpr (Node.readable_path (isPath_word (by decide)) (by decide) (by decide))

@[simp] theorem Expr.leads_self : self.Leads :=
  ((isPath_word (by decide)).isAtom (by decide)).isChain

theorem Code.isFunction_rooted {first : String} {later : List String}
    (steps : ∀ name ∈ first :: later, Ident.IsStep ⟨name, false⟩) :
    IsFunction (rooted (first :: later)) := by
  refine ⟨isPath_rooted steps, ?_⟩
  simp [rooted, sign]

@[simp] theorem Code.isFunction_present : IsFunction present := isFunction_rooted (by simp [keywords])

@[simp] theorem Code.isFunction_clone : IsFunction clone := isFunction_rooted (by simp [keywords])

@[simp] theorem Code.isFunction_default : IsFunction default := isFunction_rooted (by simp [keywords])

@[simp] theorem Code.isFunction_hash : IsFunction hash := isFunction_rooted (by simp [keywords])

@[simp] theorem Code.isFunction_newShared : IsFunction newShared :=
  (isPath_rooted (by simp [keywords])).isFunction_step (by decide)

@[simp] theorem Code.isFunction_cloneShared : IsFunction cloneShared :=
  (isPath_rooted (by simp [keywords])).isFunction_step (by decide)

namespace Expr

variable {x : Ident} {base : Expr} {args : List Expr} {function : Code}

@[simp] theorem leads_name : (name x).Leads := trivial

@[simp] theorem leads_field : (field base x).Leads := trivial

@[simp] theorem leads_call : (call base x args).Leads := trivial

@[simp] theorem leads_invoke : (invoke function args).Leads := trivial

end Expr

namespace Generated.Put

theorem walk_of_plain {type : ResolvedType} {source : Expr} {loops : Nat}
    (plain : type.holdsEntities = false) : (walk type source loops).1 = [] := by
  cases type with
  | entity => cases plain
  | list _ elem =>
    rw [ResolvedType.holdsEntities] at plain
    rw [walk, plain, if_neg Bool.false_ne_true]
  | map _ key value =>
    rw [ResolvedType.holdsEntities, Bool.or_eq_false_iff] at plain
    simp [walk, plain]
  | leaf | other => rfl

theorem readable_walk : (type : ResolvedType) → (source : Expr) → (loops : Nat) →
    source.All Node.Readable → source.Leads → Body.All Node.Readable (walk type source loops).1
  | .entity target, source, _, readable, _ => by
    simp [walk, store, Node.Readable, Expr.cloned, readable, dirtyVar,
      Naming.plain, keywords]
  | .list _ elem, source, loops, readable, leads => by
    have inner := readable_walk elem (.name (Naming.itemVar loops)) (loops + 1)
      (by simp [Node.Readable]) trivial
    rw [walk]
    split
    · simp [Node.Readable, Expr.get, leads, readable, inner,
        Binding.words, keywords]
    · exact Body.all_nil
  | .map _ key value, source, loops, readable, leads => by
    have keys := fun next => readable_walk key (.name (Naming.keyVar loops)) next
      (by simp [Node.Readable]) trivial
    have values := fun next => readable_walk value (.name (Naming.valueVar loops)) next
      (by simp [Node.Readable]) trivial
    rw [walk]
    split
    · simp [Node.Readable, Expr.get, leads, readable, keys, values,
        Binding.words, keywords]
    · simp [Node.Readable, Expr.get, leads, readable, keys, Binding.words,
        keywords]
    · simp [Node.Readable, Expr.get, leads, readable, values,
        Binding.words, keywords]
    · exact Body.all_nil
  | .leaf _, _, _, _, _ | .other _ _, _, _, _, _ => Body.all_nil

theorem readable_walkAll (properties : List Property) (loops : Nat)
    (free : ∀ property ∈ properties, property.resolved.holdsEntities →
      property.name.isKeyword = false) :
    Body.All Node.Readable (walkAll properties loops) := by
  induction properties generalizing loops with
  | nil => exact Body.all_nil
  | cons property rest ih =>
    obtain ⟨first, others⟩ := List.forall_mem_cons.mp free
    refine Body.all_append.mpr ⟨?_, ih _ others⟩
    by_cases held : property.resolved.holdsEntities
    · refine readable_walk _ _ _ ?_ trivial
      simp [Node.Readable, Naming.getter, first held, entityVar,
        Naming.plain, keywords]
    · rw [walk_of_plain (Bool.eq_false_iff.mpr held)]
      exact Body.all_nil

theorem written_method (named : entity.Named) : (method entity).Written := by
  rintro _ ⟨⟩
  have walked := readable_walkAll entity.properties 0 fun property member held =>
    named.properties ⟨property, member, held⟩ property member
  have reference : IsFunction (Code.step [.word Naming.entityRef] (Naming.plain "from")) :=
    (isPath_word (by decide)).isFunction_step (by decide)
  have fresh : IsFunction (Code.hashSet.step (Naming.plain "new")) :=
    (isPath_rooted (by simp [keywords])).isFunction_step (by decide)
  simp only [Naming.plain] at reference fresh
  simp [body, walked, Node.Readable, Expr.borrow, reference, fresh,
    entityVar, dirtyVar, Naming.plain, keywords]

end Generated.Put

namespace Generated.Get

theorem readable_idOf (plain : IsPath runtime.code) (readable : source.All Node.Readable) :
    (idOf runtime source).All Node.Readable := by
  simp [idOf, Expr.borrow, Node.Readable, readable, Path.isFunction_idFunction plain]

theorem readable_reconciled (plain : IsPath runtime.code) {cached latest : Expr}
    (first : cached.All Node.Readable) (second : latest.All Node.Readable) :
    (reconciled runtime cached latest).All Node.Readable := by
  simp [reconciled, Node.Readable, first, second, dirtyVar, Naming.plain,
    Path.isFunction_reconcile plain, keywords]

theorem readable_element (plain : IsPath runtime.code)
    {inner : Expr → Ident → Counters → Body × Counters} (type : ResolvedType)
    (rebuilt : ∀ number counters,
      Body.All Node.Readable (inner source (Naming.nestedCopy number) counters).1)
    (readable : source.All Node.Readable) (counters : Counters) :
    Body.All Node.Readable (element runtime inner type source counters).1 ∧
      (element runtime inner type source counters).2.1.All Node.Readable := by
  by_cases direct : ∃ target, type = .entity target
  · obtain ⟨target, rfl⟩ := direct
    have fetched : (Expr.self.call (Naming.readMethod target.name) [idOf runtime source]).All
        Node.Readable := by
      simp [Node.Readable, readable_idOf plain readable]
    exact ⟨Body.all_nil, readable_reconciled plain readable fetched⟩
  · rw [element_of_container fun target same => direct ⟨target, same⟩]
    split
    · exact ⟨rebuilt _ _, by simp [Node.Readable]⟩
    · exact ⟨Body.all_nil, by simp [Expr.cloned, Node.Readable, readable]⟩

theorem isFunction_fresh (container : Container) :
    IsFunction (container.qualified.step ⟨"new", false⟩) := by
  refine (isPath_rooted ?_).isFunction_step (by decide)
  rcases container with (_ | _ | _) | (_ | _) <;> decide

theorem isKeyword_insertMethod (container : Container) :
    Ident.isKeyword ⟨container.insertMethod, false⟩ = false := by
  rcases container with (_ | _ | _) | (_ | _) <;> decide

theorem readable_rebuild (plain : IsPath runtime.code) : (type : ResolvedType) →
    (source : Expr) → (copy : Ident) → (counters : Counters) → source.All Node.Readable →
    source.Leads → copy.isKeyword = false →
    Body.All Node.Readable (rebuild runtime type source copy counters).1
  | .list kind elem, source, copy, counters, readable, leads, free => by
    have item : (Expr.name (Naming.itemVar counters.loops)).All Node.Readable := by
      simp [Node.Readable]
    have inner := readable_element plain elem
      (fun _ counters => readable_rebuild plain elem _ _ counters item trivial (by simp)) item
      { counters with loops := counters.loops + 1 }
    simp [rebuild, freshCopy, grow, Node.Readable, Expr.get, readable,
      inner, leads, free, isFunction_fresh, isKeyword_insertMethod, Binding.words, Naming.plain,
      keywords]
  | .map kind key value, source, copy, counters, readable, leads, free => by
    have first : (Expr.name (Naming.keyVar counters.loops)).All Node.Readable := by
      simp [Node.Readable]
    have second : (Expr.name (Naming.valueVar counters.loops)).All Node.Readable := by
      simp [Node.Readable]
    have keys := readable_element plain key
      (fun _ counters => readable_rebuild plain key _ _ counters first trivial (by simp)) first
    have values := readable_element plain value
      (fun _ counters => readable_rebuild plain value _ _ counters second trivial (by simp)) second
    simp [rebuild, freshCopy, grow, Node.Readable, Expr.get, readable,
      keys, values, leads, free, isFunction_fresh, isKeyword_insertMethod, Binding.words,
      Naming.plain, keywords]
  | .leaf _, _, _, _, _, _, _ | .entity _, _, _, _, _, _, _ | .other _ _, _, _, _, _, _, _ =>
    Body.all_nil

theorem readable_property (plain : IsPath runtime.code) (property : Property)
    (free : property.name.isKeyword = false) (counters : Counters) :
    Body.All Node.Readable (Get.property runtime property counters).1 ∧
      (Get.property runtime property counters).2.1.All Node.Readable := by
  have cached : ((Expr.name cachedVar).call (Naming.getter property.name) []).All
      Node.Readable := by
    simp [Node.Readable, Naming.getter, free, cachedVar, Naming.plain,
      keywords]
  unfold Get.property
  split
  next target resolved =>
    have fetched : (Expr.self.call (Naming.getMethod target.name) [idOf runtime
        ((Expr.name cachedVar).call (Naming.getter property.name) [])]).All Node.Readable := by
      simp [Node.Readable, readable_idOf plain cached]
    have read := readable_reconciled plain cached fetched
    simp [Node.Readable, read]
  next resolved =>
    split
    · have body := readable_rebuild plain property.resolved _ (Naming.propertyCopy property.name)
        counters cached trivial (by simp)
      exact ⟨body, by simp [Node.Readable]⟩
    · simp [Expr.cloned, Node.Readable, cached]

theorem readable_properties (plain : IsPath runtime.code) (properties : List Property)
    (free : ∀ property ∈ properties, property.name.isKeyword = false) (counters : Counters) :
    Body.All Node.Readable (Get.properties runtime properties counters).1 ∧
      ∀ value ∈ (Get.properties runtime properties counters).2, value.All Node.Readable := by
  induction properties generalizing counters with
  | nil => exact ⟨Body.all_nil, List.forall_mem_nil _⟩
  | cons property rest ih =>
    obtain ⟨first, others⟩ := List.forall_mem_cons.mp free
    obtain ⟨body, value⟩ := readable_property plain property first counters
    obtain ⟨bodies, values⟩ := ih others (Get.property runtime property counters).2.2
    exact ⟨Body.all_append.mpr ⟨body, bodies⟩, List.forall_mem_cons.mpr ⟨value, values⟩⟩

theorem written_method (plain : IsPath runtime.code) (named : entity.Named) :
    (method runtime entity).Written := by
  rintro _ ⟨⟩
  have found : (read entity).All Node.Readable := by
    simp [read, Node.Readable, idVar, Naming.plain,
      keywords]
  unfold body
  split
  next held =>
    have free := named.properties (by simpa using held)
    obtain ⟨bodies, values⟩ := readable_properties plain entity.properties free {}
    have fresh : IsFunction (entity.type.fromStore.step ⟨"new", false⟩) :=
      named.type.isPath_fromStore.isFunction_step (by decide)
    have unset : Node.Readable (.expr (.literal [.plain "false"])) :=
      ⟨(isAtom_truth (by decide)).isChain.isOperand, by decide⟩
    have leads : (read entity).Leads := trivial
    have parts := And.intro unset values
    simpa [rebuilding, found, Node.Readable, bodies, fresh, leads,
      dirtyVar, cachedVar, Naming.plain, keywords] using parts
  next => simp [found, Node.Readable]

end Generated.Get

end EntityGen
