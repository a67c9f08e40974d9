import EntityGen.Proofs.Generated.Members
import EntityGen.Proofs.Generated.Closed
import EntityGen.Proofs.Execution.Rebuilding

/-! The bodies of the store module. What they call on the value that they belong to or on a store
of it is there, if the entities that they are made for are. -/
namespace EntityGen

open Generated

/-- What is there for the bodies of a type. -/
structure Scope where
  /-- A method of the type, by the number of its arguments. -/
  method : Ident → Nat → Prop
  field : Ident → Prop
  /-- A method of each store of a list. -/
  store : StoreList → Ident → Nat → Prop

/-- What a part of a body takes from the value that the body belongs to is there. So is what a loop
over a list of stores calls on each of them. -/
def Node.Resolves (scope : Scope) : Node → Prop
  | .expr (.call receiver method args) =>
    receiver = Expr.self → scope.method method args.length
  | .expr (.field base x) => base = Expr.self → scope.field x
  | .stmt (.each (.name x) source body) => ∀ list ∈ StoreList.all,
    source = (Expr.self.field list.name).get "iter" →
      ∀ method args, .expr (.call (.name x) method args) ∈ Body.nodes body →
        scope.store list method args.length
  | .expr _ | .stmt _ => True

def Node.Sound (scope : Scope) (known : Code.Known) (node : Node) : Prop :=
  node.Resolves scope ∧ node.Closed known

def Expr.Sound (scope : Scope) (known : Code.Known) (expr : Expr) : Prop :=
  expr.All (Node.Sound scope known)

def Stmt.Sound (scope : Scope) (known : Code.Known) (stmt : Stmt) : Prop :=
  stmt.All (Node.Sound scope known)

def Body.Sound (scope : Scope) (known : Code.Known) (body : List Stmt) : Prop :=
  Body.All (Node.Sound scope known) body

variable {scope : Scope} {known : Code.Known}

namespace Expr

variable {code function type : Code} {x method : Ident} {fields : List Ident} {writable : Bool}
  {op : BinaryOp} {base receiver operand left right scrutinee : Expr} {args : List Expr}
  {arms : List Arm}

@[simp] theorem sound_literal :
    (literal code).Sound scope known ↔ Code.Closed known code :=
  all_literal.trans (and_iff_right trivial)

@[simp] theorem sound_name : (name x).Sound scope known ↔ Code.Closed known [.word x] :=
  all_name.trans (and_iff_right trivial)

@[simp] theorem sound_field : (field base x).Sound scope known ↔
    ((base = self → scope.field x) ∧ Code.Closed known [.word x]) ∧ base.Sound scope known :=
  all_field

@[simp] theorem sound_call : (call receiver method args).Sound scope known ↔
    ((receiver = self → scope.method method args.length) ∧ Code.Closed known [.word method]) ∧
      receiver.Sound scope known ∧ ∀ arg ∈ args, arg.Sound scope known :=
  all_call

@[simp] theorem sound_invoke : (invoke function args).Sound scope known ↔
    Code.Whole known function ∧ ∀ arg ∈ args, arg.Sound scope known :=
  all_invoke.trans (and_congr_left' (and_iff_right trivial))

@[simp] theorem sound_construct : (construct type fields).Sound scope known ↔
    Code.Closed known type ∧ ∀ x ∈ fields, Code.Closed known [.word x] :=
  all_construct.trans (and_iff_right trivial)

@[simp] theorem sound_ref : (ref writable operand).Sound scope known ↔
    operand.Sound scope known :=
  all_ref.trans (and_iff_right ⟨trivial, trivial⟩)

@[simp] theorem sound_not : operand.not.Sound scope known ↔ operand.Sound scope known :=
  all_not.trans (and_iff_right ⟨trivial, trivial⟩)

@[simp] theorem sound_attempt :
    operand.attempt.Sound scope known ↔ operand.Sound scope known :=
  all_attempt.trans (and_iff_right ⟨trivial, trivial⟩)

@[simp] theorem sound_binary : (binary op left right).Sound scope known ↔
    left.Sound scope known ∧ right.Sound scope known :=
  all_binary.trans (and_iff_right ⟨trivial, trivial⟩)

@[simp] theorem sound_choice : (choice scrutinee arms).Sound scope known ↔
    (∀ arm ∈ arms, Code.Closed known arm.pattern) ∧ scrutinee.Sound scope known ∧
      ∀ arm ∈ arms, Body.Sound scope known arm.body :=
  all_choice.trans (and_congr_left' (and_iff_right trivial))

end Expr

namespace Stmt

variable {writable : Bool} {x : Ident} {type : Option Code} {value target source : Expr}
  {binding : Binding} {cond : Cond} {body : List Stmt}

@[simp] theorem sound_decl : (decl writable x type (some value)).Sound scope known ↔
    (Code.Closed known [.word x] ∧ ∀ code ∈ type, Code.Closed known code) ∧
      value.Sound scope known :=
  all_decl.trans (and_congr_left' (and_iff_right trivial))

@[simp] theorem sound_assign : (assign target value).Sound scope known ↔
    target.Sound scope known ∧ value.Sound scope known :=
  all_assign.trans (and_iff_right ⟨trivial, trivial⟩)

@[simp] theorem sound_expr : (expr value).Sound scope known ↔ value.Sound scope known :=
  all_expr.trans (and_iff_right ⟨trivial, trivial⟩)

@[simp] theorem sound_each : (each binding source body).Sound scope known ↔
    Node.Resolves scope (.stmt (each binding source body)) ∧ Code.Closed known binding.code ∧
      source.Sound scope known ∧ Body.Sound scope known body :=
  all_each.trans and_assoc

@[simp] theorem sound_branch : (branch (.holds value) body none).Sound scope known ↔
    value.Sound scope known ∧ Body.Sound scope known body :=
  all_branch_none.trans (and_iff_right ⟨trivial, trivial⟩)

@[simp] theorem sound_branch_binds : (branch (.binds binding value) body none).Sound scope known ↔
    Code.Closed known binding.code ∧ value.Sound scope known ∧ Body.Sound scope known body :=
  all_branch_none.trans (and_congr_left' (and_iff_right trivial))

@[simp] theorem sound_ret : (ret value).Sound scope known ↔ value.Sound scope known :=
  all_ret.trans (and_iff_right ⟨trivial, trivial⟩)

end Stmt

namespace Body

variable {stmt : Stmt} {body rest : List Stmt}

@[simp] theorem sound_nil : Sound scope known [] := all_nil

@[simp] theorem sound_cons :
    Sound scope known (stmt :: rest) ↔ stmt.Sound scope known ∧ Sound scope known rest :=
  all_cons

@[simp] theorem sound_append :
    Sound scope known (body ++ rest) ↔ Sound scope known body ∧ Sound scope known rest :=
  all_append

end Body

namespace Code

variable {x : Ident} {text : String}

/-- A name with a character that `super` has not is closed. -/
theorem closed_of_char (c : Char) (inside : c ∈ x.name.toList) (outside : c ∉ "super".toList) :
    Closed known [.word x] := by
  refine .token (fun same => outside ?_) .nil
  obtain rfl := Token.word.inj same
  exact inside

@[simp] theorem closed_name_plain (other : text ≠ "super") :
    Closed known [.word (Naming.plain text)] := closed_plain text other .nil

@[simp] theorem closed_singleton_plain (other : text ≠ "super") : Closed known [.plain text] :=
  closed_plain text other .nil

theorem closed_step_plain {code : Code} (first : Closed known code) (other : text ≠ "super") :
    Closed known (code.step ⟨text, false⟩) :=
  closed_step first (closed_plain text other .nil)

@[simp] theorem whole_newShared : Whole known newShared :=
  (closed_step_plain (closed_rooted (by decide)) (by decide)).whole

@[simp] theorem whole_cloneShared : Whole known cloneShared :=
  (closed_step_plain (closed_rooted (by decide)) (by decide)).whole

@[simp] theorem whole_clone : Whole known clone := (closed_rooted (by decide)).whole

@[simp] theorem whole_present : Whole known present := closed_present.whole

@[simp] theorem whole_default : Whole known default := (closed_rooted (by decide)).whole

@[simp] theorem closed_getMethod : Closed known [.word (Naming.getMethod x)] :=
  closed_of_char '_' (by simp [Naming.getMethod, Naming.plain]) (by decide)

@[simp] theorem closed_putMethod : Closed known [.word (Naming.putMethod x)] :=
  closed_of_char '_' (by simp [Naming.putMethod, Naming.plain]) (by decide)

@[simp] theorem closed_readMethod : Closed known [.word (Naming.readMethod x)] :=
  closed_of_char '_' (by simp [Naming.readMethod, Naming.plain]) (by decide)

@[simp] theorem closed_writeMethod : Closed known [.word (Naming.writeMethod x)] :=
  closed_of_char '_' (by simp [Naming.writeMethod, Naming.plain]) (by decide)

@[simp] theorem closed_propertyCopy : Closed known [.word (Naming.propertyCopy x)] :=
  closed_of_char '_' (by simp [Naming.propertyCopy, Naming.plain]) (by decide)

@[simp] theorem closed_propertyLatest : Closed known [.word (Naming.propertyLatest x)] :=
  closed_of_char '_' (by simp [Naming.propertyLatest, Naming.plain]) (by decide)

@[simp] theorem closed_itemVar {depth : Nat} : Closed known [.word (Naming.itemVar depth)] :=
  closed_of_char 'i' (by simp [Naming.itemVar, Naming.plain]) (by decide)

@[simp] theorem closed_keyVar {depth : Nat} : Closed known [.word (Naming.keyVar depth)] :=
  closed_of_char 'k' (by simp [Naming.keyVar, Naming.plain]) (by decide)

@[simp] theorem closed_valueVar {depth : Nat} : Closed known [.word (Naming.valueVar depth)] :=
  closed_of_char 'v' (by simp [Naming.valueVar, Naming.plain]) (by decide)

@[simp] theorem closed_nestedCopy {depth : Nat} : Closed known [.word (Naming.nestedCopy depth)] :=
  closed_of_char 'c' (by simp [Naming.nestedCopy, Naming.plain]) (by decide)

theorem closed_pair {second : Ident} (first_closed : Closed known [.word x])
    (second_closed : Closed known [.word second]) : Closed known (Binding.pair x second).code :=
  closed_within (closed_word first_closed (closed_punct _ second_closed))

theorem closed_byIdField {field : Ident} (named : Naming.byIdField x = .ok field) :
    Closed known [.word field] := by
  rw [Naming.byIdField_eq_ok named]
  exact closed_of_char '_' (by simp [Naming.plain]) (by decide)

end Code

structure Scope.Serves (scope : Scope) (type : EntityType) : Prop where
  get : scope.method (Naming.getMethod type.name) 1
  put : scope.method (Naming.putMethod type.name) 1
  read : scope.method (Naming.readMethod type.name) 1
  write : scope.method (Naming.writeMethod type.name) 1

structure Code.Known.Runs (known : Code.Known) (runtime : Path) : Prop where
  entityTrait : known.paths runtime.entityTrait
  idFunction : known.paths runtime.idFunction
  reconcile : known.paths runtime.reconcile

structure Code.Known.Reaches (known : Code.Known) (type : EntityType) : Prop where
  path : known.paths type.fromStore
  constructor : known.paths (type.fromStore.step ⟨"new", false⟩)

variable {runtime : Path} {type : EntityType} {entity : Entity} {property : Property}
  {source : Expr}

namespace Code.Known.Reaches

theorem whole (reaches : known.Reaches type) : Whole known type.fromStore :=
  whole_of_path reaches.path

/-- The type seen as an entity. -/
theorem whole_cast (reaches : known.Reaches type) (runs : known.Runs runtime) :
    Whole known (type.fromStore ++ .plain "as" :: runtime.entityTrait) := by
  have trait := whole_of_path runs.entityTrait
  have cast : Whole known (.plain "as" :: runtime.entityTrait) :=
    (closed_singleton_plain (by decide)).append_whole trait
  exact reaches.whole.append (by decide) cast

theorem closed_shared (reaches : known.Reaches type) :
    Closed known (Code.shared type.fromStore) := reaches.whole.shared

theorem closed_idType (reaches : known.Reaches type) (runs : known.Runs runtime) :
    Closed known (type.idType runtime) :=
  closed_step_plain ((reaches.whole_cast runs).applied .nil) (by decide)

theorem closed_found (reaches : known.Reaches type) : Closed known type.found :=
  closed_applied (closed_rooted (by decide)) reaches.closed_shared

end Code.Known.Reaches

namespace Expr

@[simp] theorem name_ne_self {x : Ident} : name x ≠ self := nofun

@[simp] theorem field_ne_self {base : Expr} {x : Ident} : base.field x ≠ self := nofun

@[simp] theorem call_ne_self {receiver : Expr} {method : Ident} {args : List Expr} :
    receiver.call method args ≠ self := nofun

@[simp] theorem get_ne_self {receiver : Expr} {method : String} : receiver.get method ≠ self :=
  call_ne_self

@[simp] theorem invoke_ne_self {function : Code} {args : List Expr} :
    invoke function args ≠ self := nofun

@[simp] theorem sound_self : self.Sound scope known :=
  sound_literal.mpr (Code.closed_plain _ (by decide) .nil)

def Foreign (expr : Expr) : Prop := expr ≠ self ∧ ∀ x, expr ≠ self.field x

theorem foreign_name {x : Ident} : (name x).Foreign := ⟨nofun, fun _ => nofun⟩

theorem foreign_call {receiver : Expr} {method : Ident} {args : List Expr} :
    (receiver.call method args).Foreign := ⟨nofun, fun _ => nofun⟩

/-- A loop over anything else is none over a list of stores. -/
theorem Foreign.resolves {binding : Binding} {name : String} {body : List Stmt}
    (foreign : source.Foreign) :
    Node.Resolves scope (.stmt (.each binding (source.get name) body)) := by
  cases binding with
  | name x =>
    intro list _ same
    exact (foreign.2 list.name (Expr.call.inj same).1).elim
  | pair | present => trivial

@[simp] theorem sound_get {name : String} (foreign : source ≠ self) (other : name ≠ "super") :
    (source.get name).Sound scope known ↔ source.Sound scope known := by
  have closed : Code.Closed known [.word ⟨name, false⟩] := Code.closed_plain name other .nil
  simp [get, foreign, closed]

end Expr

namespace Generated.Put

theorem sound_store {target : EntityType} (served : scope.Serves target)
    (sound : source.Sound scope known) : (store target source).Sound scope known := by
  simp [store, dirtyVar, Expr.cloned, served.put, sound]

-- By recursion on the type, as the walk goes. Loop variables are foreign again, so that no inner
-- loop is taken for one over a list of stores.
theorem sound_walk : (type : ResolvedType) → (source : Expr) → (loops : Nat) →
    (∀ target ∈ type.targets, scope.Serves target) →
    source.Foreign → source.Sound scope known → Body.Sound scope known (walk type source loops).1
  | .entity target, source, _, served, _, sound => by
    have stored := sound_store (served target List.mem_cons_self) sound
    simpa [walk] using stored
  | .list _ elem, source, loops, served, foreign, sound => by
    have item : (Expr.name (Naming.itemVar loops)).Sound scope known := by simp
    have inner := sound_walk elem _ (loops + 1) served Expr.foreign_name item
    rw [walk]
    split
    · simp [foreign.resolves, inner, foreign.1, sound, Binding.code]
    · exact Body.sound_nil
  | .map _ key value, source, loops, served, foreign, sound => by
    obtain ⟨keyServed, valueServed⟩ := List.forall_mem_append.mp served
    have keySound : (Expr.name (Naming.keyVar loops)).Sound scope known := by simp
    have valueSound : (Expr.name (Naming.valueVar loops)).Sound scope known := by simp
    have keys := fun loops => sound_walk key _ loops keyServed Expr.foreign_name keySound
    have values := fun loops => sound_walk value _ loops valueServed Expr.foreign_name valueSound
    rw [walk]
    have pair : Code.Closed known
        (Binding.pair (Naming.keyVar loops) (Naming.valueVar loops)).code :=
      Code.closed_pair Code.closed_keyVar Code.closed_valueVar
    split
    · simp [foreign.resolves, keys, values, foreign.1, sound, pair]
    · simp [foreign.resolves, keys, foreign.1, sound, Binding.code]
    · simp [foreign.resolves, values, foreign.1, sound, Binding.code]
    · exact Body.sound_nil
  | .leaf _, _, _, _, _, _ | .other _ _, _, _, _, _, _ => Body.sound_nil

theorem sound_walkAll {properties : List Property} (loops : Nat)
    (names : ∀ property ∈ properties, Code.Closed known [.word property.name])
    (served : ∀ property ∈ properties, ∀ target ∈ property.resolved.targets, scope.Serves target) :
    Body.Sound scope known (walkAll properties loops) := by
  induction properties generalizing loops with
  | nil => exact Body.sound_nil
  | cons property rest ih =>
    obtain ⟨name, names⟩ := List.forall_mem_cons.mp names
    obtain ⟨first, served⟩ := List.forall_mem_cons.mp served
    have source : ((Expr.name entityVar).call (Naming.getter property.name) []).Sound
        scope known := by
      simp [entityVar, Naming.getter, name]
    exact Body.sound_append.mpr
      ⟨sound_walk property.resolved _ loops first Expr.foreign_call source, ih _ names served⟩

theorem sound_body (own : scope.Serves entity.type)
    (names : ∀ property ∈ entity.properties, Code.Closed known [.word property.name])
    (served : ∀ property ∈ entity.properties, ∀ target ∈ property.resolved.targets,
      scope.Serves target) :
    Body.Sound scope known (body entity) := by
  have walked := sound_walkAll 0 names served
  have written : scope.method (Naming.writeMethod entity.name) 1 := own.write
  have newSet : Code.Whole known (Code.hashSet.step ⟨"new", false⟩) :=
    (Code.closed_step_plain (Code.closed_rooted (by decide)) (by decide)).whole
  have wrap : Code.Whole known (Code.step [.word Naming.entityRef] ⟨"from", false⟩) :=
    (Code.closed_step_plain (by simp [Naming.entityRef]) (by decide)).whole
  simp [body, walked, newSet, wrap, written, entityVar, dirtyVar, Expr.borrow]

end Generated.Put

namespace Generated.Get

theorem sound_idOf (runs : known.Runs runtime) (sound : source.Sound scope known) :
    (idOf runtime source).Sound scope known := by
  have id := Code.whole_of_path runs.idFunction
  simp [idOf, Expr.borrow, id, sound]

theorem sound_reconciled {cached latest : Expr} (runs : known.Runs runtime)
    (cached_sound : cached.Sound scope known) (latest_sound : latest.Sound scope known) :
    (reconciled runtime cached latest).Sound scope known := by
  have reconcile := Code.whole_of_path runs.reconcile
  simp [reconciled, dirtyVar, reconcile, cached_sound, latest_sound]

theorem sound_element {inner : Expr → Ident → Counters → Body × Counters} (type : ResolvedType)
    (runs : known.Runs runtime) (served : ∀ target ∈ type.targets, scope.Serves target)
    (rebuilt : ∀ copy counters, Code.Closed known [.word copy] →
      Body.Sound scope known (inner source copy counters).1)
    (sound : source.Sound scope known) (counters : Counters) :
    Body.Sound scope known (element runtime inner type source counters).1 ∧
      (element runtime inner type source counters).2.1.Sound scope known := by
  -- An entity is read from the stores; only a container is left to `inner`.
  by_cases direct : ∃ target, type = .entity target
  · obtain ⟨target, rfl⟩ := direct
    have read := (served target List.mem_cons_self).read
    have fetched : (Expr.self.call (Naming.readMethod target.name) [idOf runtime source]).Sound
        scope known := by
      simp [read, sound_idOf runs sound]
    exact ⟨Body.sound_nil, sound_reconciled runs sound fetched⟩
  · rw [element_of_container fun target same => direct ⟨target, same⟩]
    split
    · exact ⟨rebuilt _ _ Code.closed_nestedCopy, Expr.sound_name.mpr Code.closed_nestedCopy⟩
    · exact ⟨Body.sound_nil, by simp [Expr.cloned, sound]⟩

theorem sound_freshCopy {copy : Ident} {container : Container}
    (name : Code.Closed known [.word copy]) : (freshCopy copy container).Sound scope known := by
  have others : "super" ∉ ["std", container.home, container.name] := by
    obtain kind | kind := container <;> cases kind <;> decide
  have new : Code.Whole known (container.qualified.step ⟨"new", false⟩) :=
    (Code.closed_step_plain (Code.closed_rooted others) (by decide)).whole
  simp [freshCopy, name, new]

theorem sound_grow {copy : Ident} {values : List Expr} (container : Container)
    (name : Code.Closed known [.word copy]) (sound : ∀ value ∈ values, value.Sound scope known) :
    (grow copy container values).Sound scope known := by
  have other : container.insertMethod ≠ "super" := by
    obtain kind | kind := container <;> cases kind <;> decide
  simpa [grow, name, other] using sound

theorem sound_rebuild (runs : known.Runs runtime) : (type : ResolvedType) → (source : Expr) →
    (copy : Ident) → (counters : Counters) → (∀ target ∈ type.targets, scope.Serves target) →
    source.Foreign → source.Sound scope known → Code.Closed known [.word copy] →
    Body.Sound scope known (rebuild runtime type source copy counters).1
  | .list kind elem, source, copy, counters, served, foreign, sound, name => by
    have item : (Expr.name (Naming.itemVar counters.loops)).Sound scope known := by simp
    have inner := sound_element elem runs served
      (fun copy counters => sound_rebuild runs elem _ copy counters served Expr.foreign_name item)
      item { counters with loops := counters.loops + 1 }
    have grown := sound_grow (.list kind) name (List.forall_mem_singleton.mpr inner.2)
    simp [rebuild, sound_freshCopy name, foreign.resolves, foreign.1, sound, inner.1, grown,
      Binding.code]
  | .map kind key value, source, copy, counters, served, foreign, sound, name => by
    obtain ⟨keyServed, valueServed⟩ := List.forall_mem_append.mp served
    have keySound : (Expr.name (Naming.keyVar counters.loops)).Sound scope known := by simp
    have valueSound : (Expr.name (Naming.valueVar counters.loops)).Sound scope known := by simp
    have pair : Code.Closed known
        (Binding.pair (Naming.keyVar counters.loops) (Naming.valueVar counters.loops)).code :=
      Code.closed_pair Code.closed_keyVar Code.closed_valueVar
    have keys := sound_element key runs keyServed (fun copy counters =>
      sound_rebuild runs key _ copy counters keyServed Expr.foreign_name keySound) keySound
    have values := sound_element value runs valueServed (fun copy counters =>
      sound_rebuild runs value _ copy counters valueServed Expr.foreign_name valueSound) valueSound
    have grown := fun first second => sound_grow (.map kind) name
      (List.forall_mem_cons.mpr ⟨(keys first).2, List.forall_mem_singleton.mpr (values second).2⟩)
    simp [rebuild, sound_freshCopy name, foreign.resolves, foreign.1, sound, keys, values, grown,
      pair]
  | .leaf _, _, _, _, _, _, _, _ | .entity _, _, _, _, _, _, _, _
  | .other _ _, _, _, _, _, _, _, _ => Body.sound_nil

theorem sound_property (runs : known.Runs runtime)
    (name : Code.Closed known [.word property.name])
    (served : ∀ target ∈ property.resolved.targets, scope.Serves target)
    (counters : Counters) :
    Body.Sound scope known (Get.property runtime property counters).1 ∧
      (Get.property runtime property counters).2.1.Sound scope known := by
  have cached : ((Expr.name cachedVar).call (Naming.getter property.name) []).Sound
      scope known := by
    simp [cachedVar, Naming.getter, name]
  unfold Get.property
  split
  next target resolved =>
    have got := (served target (by simp [resolved, ResolvedType.targets])).get
    have fetched : (Expr.self.call (Naming.getMethod target.name) [idOf runtime
        ((Expr.name cachedVar).call (Naming.getter property.name) [])]).Sound scope known := by
      simp [got, sound_idOf runs cached]
    simp [sound_reconciled runs cached fetched]
  next resolved =>
    split
    · have rebuilt := sound_rebuild runs property.resolved _ (Naming.propertyCopy property.name)
        counters served Expr.foreign_call cached Code.closed_propertyCopy
      exact ⟨rebuilt, by simp⟩
    · simp [Expr.cloned, cached]

theorem sound_properties {properties : List Property} (runs : known.Runs runtime)
    (names : ∀ property ∈ properties, Code.Closed known [.word property.name])
    (served : ∀ property ∈ properties, ∀ target ∈ property.resolved.targets, scope.Serves target)
    (counters : Counters) :
    Body.Sound scope known (Get.properties runtime properties counters).1 ∧
      ∀ value ∈ (Get.properties runtime properties counters).2, value.Sound scope known := by
  induction properties generalizing counters with
  | nil => exact ⟨Body.sound_nil, nofun⟩
  | cons property rest ih =>
    obtain ⟨name, names⟩ := List.forall_mem_cons.mp names
    obtain ⟨first, served⟩ := List.forall_mem_cons.mp served
    obtain ⟨body, value⟩ := sound_property runs name first counters
    obtain ⟨bodies, values⟩ := ih names served (Get.property runtime property counters).2.2
    exact ⟨Body.sound_append.mpr ⟨body, bodies⟩, List.forall_mem_cons.mpr ⟨value, values⟩⟩

theorem sound_body (runs : known.Runs runtime) (reaches : known.Reaches entity.type)
    (own : scope.Serves entity.type)
    (names : ∀ property ∈ entity.properties, Code.Closed known [.word property.name])
    (served : ∀ property ∈ entity.properties, ∀ target ∈ property.resolved.targets,
      scope.Serves target) :
    Body.Sound scope known (body runtime entity) := by
  have declared : scope.method (Naming.readMethod entity.name) 1 := own.read
  have read : (Get.read entity).Sound scope known := by simp [Get.read, idVar, declared]
  unfold body
  split
  · obtain ⟨bodies, values⟩ := sound_properties runs names served {}
    have new := Code.whole_of_path reaches.constructor
    simpa [rebuilding, bodies, new, read, cachedVar, dirtyVar] using values
  · simp [read]

end Generated.Get

namespace Generated.StoreList

variable {list : StoreList} {x : Ident} {body : List Stmt}

theorem eq_of_name {other : StoreList} (member : list ∈ all) (inside : other ∈ all)
    (same : list.name = other.name) : list = other := by
  have names : (all.map StoreList.name).Nodup := by decide
  exact List.inj_on_of_nodup_map names member inside same

/-- A loop over the stores of a list calls what each of them has. -/
theorem resolves_each (member : list ∈ all)
    (stored : Body.All (fun node => ∀ method args, node = .expr (.call (.name x) method args) →
      scope.store list method args.length) body) :
    Node.Resolves scope
      (.stmt (.each (.name x) ((Expr.self.field list.name).get "iter") body)) := by
  intro other inside same method args called
  have fields := (Expr.call.inj same).1
  obtain rfl := eq_of_name member inside (Expr.field.inj fields).2
  exact stored _ called method args rfl

theorem closed_name (member : list ∈ all) : Code.Closed known [.word list.name] := by
  have other : ∀ list ∈ all, list.name ≠ ⟨"super", false⟩ := by decide
  exact .token (fun same => other list member (Token.word.inj same)) .nil

end Generated.StoreList

namespace Generated.Repository

theorem sound_read (held : scope.field StoreList.readers.name)
    (stored : scope.store .readers (Naming.getMethod entity.name) 1) :
    ∀ body ∈ (read runtime entity).body, Body.Sound scope known body := by
  rintro _ ⟨⟩
  have list : Code.Closed known [.word StoreList.readers.name] := StoreList.closed_name (by decide)
  have bound : Code.Closed known (Binding.present (Naming.plain "found")).code :=
    Code.Closed.append Code.closed_present (Code.closed_within (by simp))
  have absent : Code.Closed known Code.absent := Code.closed_rooted (by decide)
  have source : ((Expr.self.field StoreList.readers.name).get "iter").Sound scope known := by
    simp [held, list]
  refine Body.sound_cons.mpr ⟨Stmt.sound_each.mpr ⟨?_, ?_, source, ?_⟩, by simp [absent]⟩
  · exact StoreList.resolves_each (by decide) (by simp [stored])
  · simp [Binding.code]
  · simp [bound, idVar]

theorem sound_write (held : scope.field StoreList.writers.name)
    (stored : scope.store .writers (Naming.putMethod entity.name) 1) :
    ∀ body ∈ (write entity).body, Body.Sound scope known body := by
  rintro _ ⟨⟩
  have list : Code.Closed known [.word StoreList.writers.name] := StoreList.closed_name (by decide)
  have source : ((Expr.self.field StoreList.writers.name).get "iter").Sound scope known := by
    simp [held, list]
  refine Body.sound_cons.mpr ⟨Stmt.sound_each.mpr ⟨?_, ?_, source, ?_⟩, Body.sound_nil⟩
  · exact StoreList.resolves_each (by decide) (by simp [Expr.borrow, stored])
  · simp [Binding.code]
  · simp [entityVar, Expr.borrow]

theorem sound_constructor : ∀ body ∈ constructor.body, Body.Sound scope known body := by
  rintro _ ⟨⟩
  have lists : ∀ list ∈ StoreList.all, Code.Closed known [.word list.name] :=
    fun _ => StoreList.closed_name
  simpa using lists

theorem sound_builderMethod : ∀ body ∈ builderMethod.body, Body.Sound scope known body := by
  rintro _ ⟨⟩
  simp

theorem sound_defaultMethod : ∀ body ∈ defaultMethod.body, Body.Sound scope known body := by
  rintro _ ⟨⟩
  have builder : Code.Whole known (Code.itself.step ⟨"builder", false⟩) :=
    (Code.closed_step_plain Code.closed_itself (by decide)).whole
  simp [builder]

end Generated.Repository

namespace Generated.RepositoryBuilder

theorem sound_setter {list : StoreList} (member : list ∈ StoreList.all)
    (held : scope.field list.name) : ∀ body ∈ (setter list).body, Body.Sound scope known body := by
  rintro _ ⟨⟩
  simp [held, StoreList.closed_name member]

theorem sound_build (held : ∀ list ∈ StoreList.all, scope.field list.name) :
    ∀ body ∈ build.body, Body.Sound scope known body := by
  rintro _ ⟨⟩
  have readers : Code.Closed known [.word StoreList.readers.name] :=
    StoreList.closed_name (by decide)
  have writers : Code.Closed known [.word StoreList.writers.name] :=
    StoreList.closed_name (by decide)
  have memory : Code.Closed known [.word Naming.memoryStore] := by simp [Naming.memoryStore]
  have fresh : Code.Whole known (Code.step [.word Naming.memoryStore] ⟨"new", false⟩) :=
    (Code.closed_step_plain memory (by decide)).whole
  have new : Code.Whole known (Code.step [.word Naming.repository] ⟨"new", false⟩) :=
    (Code.closed_step_plain (by simp [Naming.repository]) (by decide)).whole
  have shared : Code.Closed known (Code.shared [.word Naming.memoryStore]) := memory.whole.shared
  have readersHeld := held .readers (by decide)
  have writersHeld := held .writers (by decide)
  simp [readers, writers, fresh, new, shared, readersHeld, writersHeld, isEmpty, fill,
    StoreList.all]

end Generated.RepositoryBuilder

namespace Generated.MemoryStore

theorem sound_get {method : Method} (held : ∀ field, Naming.byIdField entity.name = .ok field →
      scope.field field) (done : get runtime entity = .ok method) :
    ∀ body ∈ method.body, Body.Sound scope known body := by
  obtain ⟨field, named, rfl⟩ := of_get done
  rintro _ ⟨⟩
  simp [held field named, Code.closed_byIdField named, idVar]

theorem sound_put {method : Method} (runs : known.Runs runtime)
    (held : ∀ field, Naming.byIdField entity.name = .ok field → scope.field field)
    (done : put runtime entity = .ok method) :
    ∀ body ∈ method.body, Body.Sound scope known body := by
  obtain ⟨field, named, rfl⟩ := of_put done
  rintro _ ⟨⟩
  have id := Code.whole_of_path runs.idFunction
  have name : Code.Closed known [.word entityVar] := by simp [entityVar]
  have target : Code.Closed known [.punct '*', .word entityVar] := Code.closed_punct _ name
  simp [held field named, Code.closed_byIdField named, idVar, id, name, target, Expr.borrow]

theorem sound_constructor : ∀ body ∈ constructor.body, Body.Sound scope known body := by
  rintro _ ⟨⟩
  simp

end Generated.MemoryStore

namespace Generated.EntityRef

variable {content : Code} {entities : List Entity}

theorem closed_variantOf (name : Code.Closed known [.word entity.name])
    (inner : Code.Closed known content) : Code.Closed known (variantOf entity content) :=
  (Code.closed_step Code.closed_itself name).append (Code.closed_within inner)

theorem closed_typeName (runs : known.Runs runtime) (reaches : known.Reaches entity.type) :
    Code.Closed known (typeName runtime entity) :=
  Code.closed_step_plain ((reaches.whole_cast runs).applied .nil) (by decide)

theorem sound_entityType (runs : known.Runs runtime)
    (reaches : ∀ entity ∈ entities, known.Reaches entity.type)
    (names : ∀ entity ∈ entities, Code.Closed known [.word entity.name]) :
    ∀ body ∈ (entityType runtime entities).body, Body.Sound scope known body := by
  rintro _ ⟨⟩
  have patterns : ∀ entity ∈ entities, Code.Closed known (variantOf entity [.plain "_"]) :=
    fun entity member => closed_variantOf (names entity member) (by simp)
  have types : ∀ entity ∈ entities, Code.Closed known (typeName runtime entity) :=
    fun entity member => closed_typeName runs (reaches entity member)
  simpa [Arm.value, Arm.pattern, Arm.body] using ⟨patterns, types⟩

theorem sound_eqMethod (names : ∀ entity ∈ entities, Code.Closed known [.word entity.name]) :
    ∀ body ∈ (eqMethod entities).body, Body.Sound scope known body := by
  rintro _ ⟨⟩
  have first : Code.Closed known [.word firstVar] := by simp [firstVar]
  have second : Code.Closed known [.word secondVar] := by simp [secondVar]
  have patterns : ∀ entity ∈ entities, Code.Closed known (Code.within .round
      (Code.commas [variantOf entity [.word firstVar], variantOf entity [.word secondVar]])) := by
    intro entity member
    refine Code.closed_within (Code.closed_commas ?_)
    simp [closed_variantOf (names entity member), first, second]
  have pair : Code.Closed known
      (Code.within .round [.plain "self", .punct ',', .plain "other"]) := by
    refine Code.closed_within (Code.closed_plain _ (by decide) (Code.closed_punct _ ?_))
    exact Code.closed_singleton_plain (by decide)
  simpa [Arm.value, Arm.pattern, Arm.body, pair, first, second, or_imp, forall_and] using patterns

theorem sound_hashMethod (runs : known.Runs runtime)
    (reaches : ∀ entity ∈ entities, known.Reaches entity.type)
    (names : ∀ entity ∈ entities, Code.Closed known [.word entity.name]) :
    ∀ body ∈ (hashMethod runtime entities).body, Body.Sound scope known body := by
  rintro _ ⟨⟩
  have name : Code.Closed known [.word entityVar] := by simp [entityVar]
  have state : Code.Closed known [.word stateVar] := by simp [stateVar]
  have target : Code.Closed known [.punct '*', .punct '*', .word entityVar] :=
    Code.closed_punct _ (Code.closed_punct _ name)
  have hash : Code.Whole known Code.hash := (Code.closed_rooted (by decide)).whole
  have id := Code.whole_of_path runs.idFunction
  have patterns : ∀ entity ∈ entities, Code.Closed known (variantOf entity [.word entityVar]) :=
    fun entity member => closed_variantOf (names entity member) name
  have types : ∀ entity ∈ entities, Code.Closed known (typeName runtime entity) :=
    fun entity member => closed_typeName runs (reaches entity member)
  simpa [Arm.pattern, Arm.body, Expr.borrow, state, target, hash, id] using ⟨patterns, types⟩

theorem sound_fromImpl {source : Expr} (type : Code) (name : Code.Closed known [.word entity.name])
    (sound : source.Sound scope known) :
    ∀ method ∈ (fromImpl entity type source).methods, ∀ body ∈ method.body,
      Body.Sound scope known body := by
  have variant : Code.Whole known (Code.itself.step entity.name) :=
    (Code.closed_step Code.closed_itself name).whole
  simp [fromImpl, variant, sound]

end Generated.EntityRef
end EntityGen
