import EntityGen.Proofs.Execution.Calls
import EntityGen.Proofs.Generated.Accessors
import EntityGen.Semantics.StoreCalls

/-! What the methods of stores in memory do, and those by which a repository asks its stores and
writes to them. A store answers with the shared value that stands under an id and replaces it when
another one is put there; a repository asks one store after the other and writes to each. -/
namespace EntityGen

/-- Methods of different names are found by them, if none of these is raw. -/
theorem find?_method {methods : List Method} {method : Method}
    (distinct : (methods.map Method.name).Nodup)
    (plain : ∀ other ∈ methods, other.name = Naming.plain other.name.name)
    (member : method ∈ methods) :
    methods.find? (fun other => other.name.name == method.name.name) = some method := by
  have names : (methods.map fun other => other.name.name).Nodup := by
    rw [← Function.comp_def Ident.name, ← List.map_map]
    refine distinct.map_on fun x among y inside same => ?_
    obtain ⟨first, isFirst, rfl⟩ := List.mem_map.mp among
    obtain ⟨second, isSecond, rfl⟩ := List.mem_map.mp inside
    rw [plain first isFirst, plain second isSecond, same]
  exact find?_of_nodup_keys names member

section Lookup

variable {runtime : Path} {entities : List Entity} {entity : Entity}

/-- The methods of the store in memory are named for the entities that they are for. -/
theorem Generated.MemoryStore.name_of_mem {memory : TypeDecl} {method : Method}
    (done : typeDecl runtime entities = .ok memory)
    (member : method ∈ memory.impls.flatMap ImplDecl.methods) :
    ∃ entity : Entity, method.name = Naming.getMethod entity.name ∨
      method.name = Naming.putMethod entity.name := by
  obtain ⟨_, getters, putters, -, getters_ok, putters_ok, -, -, -, -, impls⟩ := of_typeDecl done
  have listed : memory.impls.flatMap ImplDecl.methods = getters ++ putters := by simp [impls]
  rw [listed, List.mem_append] at member
  rcases member with getter | putter
  · obtain ⟨entity, -, made⟩ := mem_of_mapM getters_ok getter
    obtain ⟨_, -, rfl⟩ := of_get made
    exact ⟨entity, .inl rfl⟩
  · obtain ⟨entity, -, made⟩ := mem_of_mapM putters_ok putter
    obtain ⟨_, -, rfl⟩ := of_put made
    exact ⟨entity, .inr rfl⟩

namespace StoreSide

theorem implMethod?_eq (side : StoreSide runtime entities) {method : Method}
    (member : method ∈ side.memory.impls.flatMap ImplDecl.methods) :
    side.memory.implMethod? method.name.name = some method := by
  obtain ⟨_, _, _, -, -, -, isStore, -⟩ := Generated.MemoryStore.of_typeDecl side.memory_ok
  have distinct := (Generated.MemoryStore.namesApart side.apart side.memory_ok).methods
    (by rw [isStore]; decide)
  rw [TypeDecl.methods, List.map_append] at distinct
  refine find?_method distinct.of_append_right (fun other among => ?_) member
  obtain ⟨entity, same | same⟩ := Generated.MemoryStore.name_of_mem side.memory_ok among
  · rw [same]; rfl
  · rw [same]; rfl

/-- What is made for an entity is among the methods. -/
theorem implMethod?_made (side : StoreSide runtime entities) {make : Entity → Except BadName Method}
    {methods : List Method} (made : entities.mapM make = .ok methods)
    (listed : ∀ method ∈ methods, method ∈ side.memory.impls.flatMap ImplDecl.methods)
    (member : entity ∈ entities) : ∃ method, make entity = .ok method ∧
      side.memory.implMethod? method.name.name = some method := by
  obtain ⟨method, inside, done⟩ := exists_mem_of_mapM made member
  exact ⟨method, done, side.implMethod?_eq (listed method inside)⟩

theorem implMethod?_get (side : StoreSide runtime entities) (member : entity ∈ entities) :
    ∃ method, Generated.MemoryStore.get runtime entity = .ok method ∧
      side.memory.implMethod? (Naming.getMethod entity.name).name = some method := by
  obtain ⟨_, getters, _, -, getters_ok, -, -, -, -, -, impls⟩ :=
    Generated.MemoryStore.of_typeDecl side.memory_ok
  obtain ⟨method, made, found⟩ := side.implMethod?_made getters_ok
    (fun method among => by simp [impls, among]) member
  obtain ⟨_, -, rfl⟩ := Generated.MemoryStore.of_get made
  exact ⟨_, made, found⟩

theorem implMethod?_put (side : StoreSide runtime entities) (member : entity ∈ entities) :
    ∃ method, Generated.MemoryStore.put runtime entity = .ok method ∧
      side.memory.implMethod? (Naming.putMethod entity.name).name = some method := by
  obtain ⟨_, _, putters, -, -, putters_ok, -, -, -, -, impls⟩ :=
    Generated.MemoryStore.of_typeDecl side.memory_ok
  obtain ⟨method, made, found⟩ := side.implMethod?_made putters_ok
    (fun method among => by simp [impls, among]) member
  obtain ⟨_, -, rfl⟩ := Generated.MemoryStore.of_put made
  exact ⟨_, made, found⟩

end StoreSide

/-- The methods of a repository that no trait asks for are found by their names. -/
theorem Generated.Repository.method?_eq (apart : Entity.Apart entities) {method : Method}
    (member : method ∈ (typeDecl runtime entities).inherent) :
    (typeDecl runtime entities).method? method.name.name = some method := by
  have distinct := @nodup_methods runtime _ apart
  rw [TypeDecl.methods, List.map_append, List.map_append] at distinct
  refine find?_method distinct.of_append_left.of_append_right (fun other among => ?_) member
  simp only [typeDecl, List.mem_cons, List.mem_flatMap, List.not_mem_nil, or_false] at among
  obtain rfl | rfl | ⟨entity, -, rfl | rfl⟩ := among <;> rfl

theorem Generated.Repository.method?_read (apart : Entity.Apart entities)
    (member : entity ∈ entities) : (typeDecl runtime entities).method?
      (Naming.readMethod entity.name).name = some (read runtime entity) := by
  have inside : read runtime entity ∈ (typeDecl runtime entities).inherent :=
    .tail _ (.tail _ (List.mem_flatMap.mpr ⟨entity, member, List.mem_cons_self⟩))
  exact method?_eq apart inside

theorem Generated.Repository.method?_write (apart : Entity.Apart entities)
    (member : entity ∈ entities) : (typeDecl runtime entities).method?
      (Naming.writeMethod entity.name).name = some (write entity) := by
  have inside : write entity ∈ (typeDecl runtime entities).inherent :=
    .tail _ (.tail _ (List.mem_flatMap.mpr ⟨entity, member, .tail _ List.mem_cons_self⟩))
  exact method?_eq apart inside

end Lookup

namespace Host

/-- A store can keep the entity: its type is one of those that methods are declared for. -/
structure Storable (host : Host World) (entity : Entity) (value : Value) : Prop where
  member : entity ∈ host.types
  found : host.entity? entity.type = some entity
  distinct : entity.Distinct
  typed : Typed host.schema (.entity entity.type) value

variable {host : Host World} {entity : Entity} {type : EntityType} {cell : Cell}

theorem table?_eq (apart : Entity.Apart host.types) {field : Ident} (member : entity ∈ host.types)
    (named : Naming.byIdField entity.name = .ok field) : host.table? field = some entity.type := by
  have isSome : (host.types.find? fun other =>
      (Naming.byIdField other.name).toOption == some field).isSome :=
    List.find?_isSome.mpr ⟨entity, member, by simp [named, Except.toOption]⟩
  obtain ⟨other, found⟩ := Option.isSome_iff_exists.mp isSome
  have same := List.find?_some found
  have stems := Naming.byIdField_inj.mp ((ok_of_toOption (beq_iff_eq.mp same)).trans named.symm)
  obtain rfl : other = entity := List.inj_on_of_nodup_map apart
    (List.mem_of_find?_eq_some found) member (Naming.getMethod_inj.mpr stems)
  rw [table?, found]
  rfl

/-- The id of a shared entity. -/
theorem invoke_id_shared (storable : host.Storable entity cell.value) :
    host.invoke host.runtime.idFunction [.shared entity.type cell] =
      pure (.owned entity.idProperty.resolved (host.schema.idOf ⟨entity.type, cell.value⟩)) := by
  obtain ⟨fields, whole, lengths⟩ := fields_of_typed storable.found storable.typed
  have ofContent : host.apply .id [.shared entity.type cell] =
      host.apply .id [.datum (host.content entity.type cell)] := rfl
  have asDatum := invoke_id storable.found storable.distinct lengths (host.iteration cell.tag)
  rw [← whole] at asDatum
  exact (invoke_library .id (by decide)).trans
    (ofContent.trans ((invoke_library .id (by decide)).symm.trans asDatum))

section Machines

variable {store : Nat} {id : Value} {idType : ResolvedType}

@[simp] theorem callLibrary_borrow :
    callLibrary (.table store type) ⟨"borrow", false⟩ [] = pure (.table store type) := rfl

@[simp] theorem callLibrary_borrowMut :
    callLibrary (.table store type) ⟨"borrow_mut", false⟩ [] = pure (.table store type) := rfl

@[simp] theorem callLibrary_get :
    callLibrary (.table store type) ⟨"get", false⟩ [.owned idType id] = Run.effect (do
      return .found type ((← get).get store ⟨type, id⟩)) := rfl

@[simp] theorem callLibrary_insert :
    callLibrary (.table store type) ⟨"insert", false⟩ [.owned idType id, .shared type cell] =
      Run.effect (do
        let before := (← get).get store ⟨type, id⟩
        modify fun world => world.putCell [store] ⟨type, id⟩ cell
        return .found type before) := rfl

@[simp] theorem callLibrary_cloned (found : Option Cell) :
    callLibrary (.found type found) ⟨"cloned", false⟩ [] = pure (.found type found) := by
  cases found <;> rfl

@[simp] theorem call_baseMachine : host.baseMachine.call = callLibrary := rfl

@[simp] theorem change?_baseMachine : host.baseMachine.change? = host.change? := rfl

@[simp] theorem field_baseMachine (field : Ident) : host.baseMachine.field (.store store) field =
    (do return .table store (← Run.orStuck (host.table? field))) := rfl

@[simp] theorem invoke_baseMachine (code : Code) :
    host.baseMachine.invoke code [.shared type cell] = host.invoke code [.shared type cell] := rfl

theorem construct_baseMachine (values : List (Ident × Operand)) :
    host.baseMachine.construct Code.itself values =
      (do return .lists (← Run.orStuck (Repository.ofFields? values))) := by
  simp only [baseMachine, if_true]

end Machines

/-- A store answers with what stands under an id. -/
theorem run_storeGet (apart : Entity.Apart host.types) (member : entity ∈ host.types)
    (made : Generated.MemoryStore.get host.runtime entity = .ok method) (store : Nat)
    (idType : ResolvedType) (id : Value) :
    method.run host.baseMachine (some (.store store)) [.owned idType id] = (do
      return some (.found entity.type ((← get).get store ⟨entity.type, id⟩))) := by
  obtain ⟨field, named, rfl⟩ := Generated.MemoryStore.of_get made
  refine Method.run_of_returned get (fun world : World =>
    .found entity.type (world.get store ⟨entity.type, id⟩)) rfl rfl ?_
  simp [Method.scope, Body.exec, Stmt.exec, Expr.eval, Expr.evalAll, Expr.get, Expr.self,
    Code.operand_self, Generated.MemoryStore.idVar, Naming.plain, Run.read, Env.find?_cons_of_ne,
    table?_eq apart member named, change?, Run.lift_map]

/-- A store replaces what stands under the id of an entity. -/
theorem run_storePut (apart : Entity.Apart host.types) (storable : host.Storable entity cell.value)
    (made : Generated.MemoryStore.put host.runtime entity = .ok method) (store : Nat) :
    method.run host.baseMachine (some (.store store)) [.shared entity.type cell] = (do
      modify fun world => world.putCell [store] (host.schema.slot ⟨entity.type, cell.value⟩) cell
      return some (.flag true)) := by
  obtain ⟨field, named, rfl⟩ := Generated.MemoryStore.of_put made
  refine Method.run_of_returned (modify _) (fun _ => .flag true) rfl rfl ?_
  have key := invoke_id_shared storable
  simp [Method.scope, Body.exec, Stmt.exec, Expr.eval, Expr.evalAll, Expr.get, Expr.self,
    Expr.borrow, Code.operand_self, Generated.MemoryStore.idVar, Generated.MemoryStore.entityVar,
    Naming.plain, Run.read, Env.find?_cons_of_ne, key, Code.operand_deref, Code.operand_true,
    table?_eq apart storable.member named, Host.change?, Run.lift_map]
  rfl

@[simp] theorem change?_storeMachine : host.storeMachine.change? = host.change? := rfl

theorem field_storeMachine {repository : Repository} {field : Ident} {stores : List Nat}
    (named : repository.list? field = some stores) :
    host.storeMachine.field (.lists repository) field = pure (.stores stores) := by
  change Operand.stores <$> Run.orStuck (repository.list? field) = _
  rw [named]
  rfl

theorem invoke_storeMachine {code : Code}
    (noStore : code ≠ Code.step [.word Naming.memoryStore] ⟨"new", false⟩)
    (noRepository : code ≠ Code.step [.word Naming.repository] ⟨"new", false⟩)
    (args : List Operand) :
    host.storeMachine.invoke code args = host.baseMachine.invoke code args := by
  simp only [storeMachine, if_neg noStore, if_neg noRepository]

/-- The methods that a store has as its traits ask for begin with other letters. -/
theorem storeMethod?_eq_none {name : Ident} (noGet : Naming.initial name ≠ some 'g')
    (noPut : Naming.initial name ≠ some 'p') : host.storeMethod? name = none := by
  rw [storeMethod?]
  cases done : Generated.MemoryStore.typeDecl host.runtime host.types with
  | error => rfl
  | ok memory =>
    have none : memory.implMethod? name.name = none := by
      rw [TypeDecl.implMethod?, List.find?_eq_none]
      intro method member same
      have initials : Naming.initial method.name = Naming.initial name := by
        rw [Naming.initial, Naming.initial, beq_iff_eq.mp same]
      obtain ⟨entity, isMethod | isMethod⟩ := Generated.MemoryStore.name_of_mem done member
      · exact noGet (initials.symm.trans (isMethod ▸ Naming.initial_getMethod _))
      · exact noPut (initials.symm.trans (isMethod ▸ Naming.initial_putMethod _))
    exact none

/-- What is found when a store is asked for an entity. -/
theorem call_storeGet (side : StoreSide host.runtime host.types) (member : entity ∈ host.types)
    (store : Nat) (idType : ResolvedType) (id : Value) :
    host.storeMachine.call (.store store) (Naming.getMethod entity.name) [.owned idType id] =
      Run.effect (do return .found entity.type ((← get).get store ⟨entity.type, id⟩)) := by
  obtain ⟨method, made, found⟩ := side.implMethod?_get member
  have isMethod : host.storeMethod? (Naming.getMethod entity.name) = some method := by
    rw [storeMethod?, side.memory_ok]
    exact found
  simp only [storeMachine, isMethod, run_storeGet side.apart member made]
  rfl

/-- What becomes of a store when an entity is put into it. -/
theorem call_storePut (side : StoreSide host.runtime host.types)
    (storable : host.Storable entity cell.value) (store : Nat) :
    host.storeMachine.call (.store store) (Naming.putMethod entity.name)
        [.shared entity.type cell] = Run.effect (do
      modify fun world => world.putCell [store] (host.schema.slot ⟨entity.type, cell.value⟩) cell
      return .flag true) := by
  obtain ⟨method, made, named⟩ := side.implMethod?_put storable.member
  have isMethod : host.storeMethod? (Naming.putMethod entity.name) = some method := by
    rw [storeMethod?, side.memory_ok]
    exact named
  simp only [storeMachine, isMethod, run_storePut side.apart storable made]
  rfl

end Host

namespace Generated.Repository

open Host

variable {host : Host World} {entity : Entity} {env : Env} {cell : Cell} {type : EntityType}
  {idType : ResolvedType} {id : Value}

/-- What is done with each reader. -/
def probe (entity : Entity) : Stmt :=
  .branch (.binds (.present (Naming.plain "found"))
      ((Expr.name (Naming.plain "reader")).call (Naming.getMethod entity.name) [.name idVar]))
    [.ret (.invoke Code.present [.name (Naming.plain "found")])] none

/-- How the search for an entity ends: with what was found, or to go on behind it. -/
def probed (type : EntityType) (env : Env) : Option Cell → Except Stop (Unit × Env)
  | some cell => .error (.returned (.present (.shared type cell)))
  | none => .ok ((), env)

theorem run_probe (side : StoreSide host.runtime host.types) (member : entity ∈ host.types)
    (given : env.find? "id" = some (.owned idType id)) (store : Nat) (world : World) :
    let locals : Env := ("reader", .store store) :: env
    ((Body.exec host.storeMachine [probe entity]).run locals).run.run world =
      (probed entity.type locals (world.get store ⟨entity.type, id⟩), world) := by
  have call := call_storeGet side member store idType id
  have present (cell : Cell) : host.storeMachine.invoke Code.present [.shared entity.type cell] =
      pure (.present (.shared entity.type cell)) :=
    (invoke_storeMachine (by decide) (by decide) _).trans (@invoke_present World host _)
  simp [probe, Body.exec, Stmt.exec, Expr.eval, Expr.evalAll, Naming.plain, idVar, Run.read,
    Env.find?_cons_of_ne, given, call, Host.change?]
  cases world.get store ⟨entity.type, id⟩ with
  | none => rfl
  | some cell =>
    simp [Operand.found, Run.run_inScope, Binding.bind, present]
    rfl

/-- The readers are asked one after the other, until one has the entity. -/
theorem run_probes (side : StoreSide host.runtime host.types) (member : entity ∈ host.types)
    (given : env.find? "id" = some (.owned idType id)) (readers : List Nat) (world : World) :
    (((readers.map Operand.store).forM fun item => Run.inScope do
        (Binding.name (Naming.plain "reader")).bind World item
        Body.exec host.storeMachine [probe entity]).run env).run.run world =
      (probed entity.type env (readers.findSome? fun store => world.get store ⟨entity.type, id⟩),
        world) := by
  induction readers with
  | nil => rfl
  | cons store readers ih =>
    have here := run_probe side member given store world
    simp only [List.map_cons, List.forM_eq_forM, List.forM_cons, StateT.run_bind, Run.run_inScope,
      Binding.bind, Naming.plain, Run.run_declare, pure_bind, bind_assoc] at ih ⊢
    cases content : world.get store ⟨entity.type, id⟩ with
    | some cell =>
      rw [content] at here
      rw [Run.run_bind_of_error here, List.findSome?_cons, content]
      rfl
    | none =>
      rw [content] at here
      rw [Run.run_bind_of_ok here, List.findSome?_cons, content, ← ih]
      simp

theorem eval_stores {repository : EntityGen.Repository} {field : Ident} {stores : List Nat}
    (self : env.find? "self" = some (.lists repository))
    (named : repository.list? field = some stores) :
    (((Expr.self.field field).get "iter").eval host.storeMachine).run env =
      pure (.sequence (stores.map .store), env) := by
  have items : host.storeMachine.call (.stores stores) ⟨"iter", false⟩ [] =
      pure (.sequence (stores.map .store)) := rfl
  have noChange : host.change? (.stores stores) ⟨"iter", false⟩ [] = none := rfl
  simp [Expr.get, Expr.self, Expr.eval, Expr.evalAll, Code.operand_self, Run.run_read self,
    field_storeMachine named, items, noChange]

/-- A repository answers with what the first reader that has an entity holds. -/
theorem run_readMethod (side : StoreSide host.runtime host.types) (member : entity ∈ host.types)
    (repository : EntityGen.Repository) (idType : ResolvedType) (id : Value) :
    (read host.runtime entity).run host.storeMachine (some (.lists repository))
        [.owned idType id] = (do
      return some (.found entity.type (repository.read (← get) ⟨entity.type, id⟩))) := by
  funext world
  let env : Env := [("self", .lists repository), ("id", .owned idType id)]
  let slot : Slot := ⟨entity.type, id⟩
  have ends : ((Body.exec host.storeMachine [.each (.name (Naming.plain "reader"))
      ((Expr.self.field StoreList.readers.name).get "iter") [probe entity],
      .ret (.literal Code.absent)]).run env).run.run world =
      (.error (.returned (.found entity.type (repository.read world slot))), world) := by
    have stores : (((Expr.self.field StoreList.readers.name).get "iter").eval
        host.storeMachine).run env = pure (.sequence (repository.readers.map .store), env) :=
      eval_stores rfl rfl
    have given : env.find? "id" = some (.owned idType id) := rfl
    have probes : _ = (probed entity.type env (repository.read world slot), world) :=
      run_probes side member given repository.readers world
    simp only [Body.exec, Stmt.exec, StateT.run_bind, stores, pure_bind, Expr.eval,
      Code.operand_absent]
    cases found : repository.read world slot with
    | some cell =>
      rw [found] at probes
      exact Run.run_bind_of_error probes
    | none =>
      rw [found] at probes
      exact Run.run_bind_of_ok probes
  have start : (read host.runtime entity).scope (some (.lists repository)) [.owned idType id] =
      env := rfl
  rw [← start] at ends
  exact Method.run_of_ends rfl rfl ends

/-- What is done with each writer. -/
def send (entity : Entity) : Stmt :=
  .expr ((Expr.name (Naming.plain "writer")).call (Naming.putMethod entity.name)
    [.invoke Code.cloneShared [(Expr.name entityVar).borrow]])

theorem run_send (side : StoreSide host.runtime host.types)
    (storable : host.Storable entity cell.value)
    (given : env.find? "entity" = some (.shared entity.type cell)) (store : Nat) :
    let locals : Env := ("writer", .store store) :: env
    (Body.exec host.storeMachine [send entity]).run locals = (do
      ExceptT.lift (modify fun world =>
        world.putCell [store] (host.schema.slot ⟨entity.type, cell.value⟩) cell)
      pure ((), locals)) := by
  have call := call_storePut side storable store
  have clone : host.storeMachine.invoke Code.cloneShared [.shared entity.type cell] =
      pure (.shared entity.type cell) :=
    (invoke_storeMachine (by decide) (by decide) _).trans (@invoke_cloneShared World host _ _)
  simp [send, Body.exec, Stmt.exec, Expr.eval, Expr.evalAll, Expr.borrow, Naming.plain, entityVar,
    Run.read, Env.find?_cons_of_ne, given, call, Host.change?, clone, Run.lift_map]

/-- Each writer gets the same shared value. -/
theorem run_sends (side : StoreSide host.runtime host.types)
    (storable : host.Storable entity cell.value)
    (given : env.find? "entity" = some (.shared entity.type cell)) (writers : List Nat) :
    ((writers.map Operand.store).forM fun item => Run.inScope do
        (Binding.name (Naming.plain "writer")).bind World item
        Body.exec host.storeMachine [send entity]).run env = (do
      ExceptT.lift (modify fun world =>
        world.putCell writers (host.schema.slot ⟨entity.type, cell.value⟩) cell)
      pure ((), env)) := by
  induction writers with
  | nil => rfl
  | cons store writers ih =>
    have here := run_send side storable given store
    simp only [List.map_cons, List.forM_eq_forM, List.forM_cons, StateT.run_bind, Run.run_inScope,
      Binding.bind, Naming.plain, Run.run_declare, pure_bind, bind_assoc] at ih ⊢
    rw [here]
    simp only [bind_assoc, pure_bind, List.length_cons, Nat.add_sub_cancel_left,
      List.drop_succ_cons, List.drop_zero, ih]
    rfl

/-- A repository puts a shared value into each of its writers. -/
theorem run_writeMethod (side : StoreSide host.runtime host.types)
    (storable : host.Storable entity cell.value) (repository : EntityGen.Repository) :
    (write entity).run host.storeMachine (some (.lists repository)) [.shared entity.type cell] = (do
      modify fun world => world.putCell repository.writers
        (host.schema.slot ⟨entity.type, cell.value⟩) cell
      return some .nothing) := by
  funext world
  let env : Env := [("self", .lists repository), ("entity", .shared entity.type cell)]
  have stores : (((Expr.self.field StoreList.writers.name).get "iter").eval
      host.storeMachine).run env = pure (.sequence (repository.writers.map .store), env) :=
    eval_stores rfl rfl
  have given : env.find? "entity" = some (.shared entity.type cell) := rfl
  have ends : ((Body.exec host.storeMachine [.each (.name (Naming.plain "writer"))
      ((Expr.self.field StoreList.writers.name).get "iter") [send entity]]).run env).run.run world =
      (.ok ((), env), world.putCell repository.writers
        (host.schema.slot ⟨entity.type, cell.value⟩) cell) := by
    simp only [Body.exec, Stmt.exec, StateT.run_bind, stores, pure_bind]
    have sends := run_sends side storable given repository.writers
    have done := congrArg (fun action => (ExceptT.run action).run world) sends
    exact Run.run_bind_of_ok done
  have start : (write entity).scope (some (.lists repository)) [.shared entity.type cell] =
      env := rfl
  rw [← start] at ends
  exact Method.run_of_ends rfl rfl ends

end Generated.Repository

namespace Host

variable {host : Host World} {entity : Entity} {cell : Cell}

/-- What the repository finds for an entity when its methods ask for it. -/
theorem storeMethods_read (side : StoreSide host.runtime host.types) (member : entity ∈ host.types)
    (repository : Repository) (idType : ResolvedType) (id : Value) :
    host.storeMethods repository (Naming.readMethod entity.name) [.owned idType id] = (do
      return .found entity.type (repository.read (← get) ⟨entity.type, id⟩)) := by
  have named := @Generated.Repository.method?_read host.runtime _ _ side.apart member
  simp only [storeMethods, named, Generated.Repository.run_readMethod side member]
  rfl

/-- What becomes of the stores when the methods of the repository write an entity. -/
theorem storeMethods_write (side : StoreSide host.runtime host.types)
    (storable : host.Storable entity cell.value) (repository : Repository) :
    host.storeMethods repository (Naming.writeMethod entity.name) [.shared entity.type cell] = (do
      modify fun world => world.putCell repository.writers
        (host.schema.slot ⟨entity.type, cell.value⟩) cell
      return .nothing) := by
  have named := @Generated.Repository.method?_write host.runtime _ _ side.apart storable.member
  simp only [storeMethods, named,
    Generated.Repository.run_writeMethod side storable]
  rfl

end Host

end EntityGen
