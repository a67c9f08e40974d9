import EntityGen.Proofs.Execution.Stores

/-! What the builder of a repository does. It takes the lists of stores that it was given, and one
new store stands in for each that is empty. -/
namespace EntityGen

@[simp] theorem Operand.stores?_stores (numbers : List Nat) :
    (stores numbers).stores? = some numbers := by
  change (numbers.map store).mapM store? = some numbers
  induction numbers with
  | nil => rfl
  | cons first rest ih =>
    rw [List.map_cons, List.mapM_cons, ih]
    rfl

namespace Generated

variable {host : Host World} {env : Env} {stores : List Nat} {list : StoreList} {store : Nat}

theorem Repository.run_constructor (host : Host World) (readers writers : List Nat) :
    Repository.constructor.run host.baseMachine none [.stores readers, .stores writers] =
      pure (some (.lists ⟨readers, writers⟩)) := by
  refine Method.run_of_pure_returned rfl rfl ?_
  let env : Env := [("readers", .stores readers), ("writers", .stores writers)]
  have values : ((StoreList.all.map StoreList.name).mapM fun x => Run.read x.name :
      Run World (List Operand)).run env = pure ([.stores readers, .stores writers], env) :=
    Run.run_mapM_read (.cons rfl (.cons rfl .nil))
  have fields : EntityGen.Repository.ofFields?
      ((StoreList.all.map StoreList.name).zip [.stores readers, .stores writers]) =
        some ⟨readers, writers⟩ := by
    simp [EntityGen.Repository.ofFields?, StoreList.all, StoreList.readers, StoreList.writers,
      Naming.plain]
  change (Body.exec host.baseMachine _).run env = _
  simp only [Body.exec, Stmt.exec, Expr.eval, StateT.run_bind, values, pure_bind,
    Host.construct_baseMachine, fields, Run.run_orStuck_some]
  rfl

theorem MemoryStore.run_constructor (host : Host World) :
    MemoryStore.constructor.run host.baseMachine none [] = (do
      return some (.store (← World.newStore))) := by
  refine Method.run_of_returned World.newStore .store rfl rfl ?_
  simp [Body.exec, Stmt.exec, Expr.eval, Expr.evalAll, Host.baseMachine, Run.lift_map]

namespace RepositoryBuilder

/-- A setter replaces one list of the builder. -/
theorem run_setter (host : Host World) {repository after : EntityGen.Repository}
    (named : repository.withList? list.name stores = some after) :
    (setter list).run host.storeMachine (some (.lists repository)) [.stores stores] =
      pure (some (.lists after)) := by
  refine Method.run_of_pure_returned rfl rfl ?_
  have apart : "self" ≠ list.name.name := by
    intro same
    simp [EntityGen.Repository.withList?, ← same] at named
  have items : host.storeMachine.call (.stores stores) ⟨"into_iter", false⟩ [] =
      pure (.sequence (stores.map .store)) := rfl
  have collected : host.storeMachine.call (.sequence (stores.map .store)) ⟨"collect", false⟩ [] =
      pure (.stores stores) := rfl
  have noChange : host.change? (.stores stores) ⟨"into_iter", false⟩ [] = none := rfl
  have noChange' : host.change? (.sequence (stores.map .store)) ⟨"collect", false⟩ [] = none := rfl
  have update : host.storeMachine.update? (.lists repository) list.name (.stores stores) =
      some (.lists after) := by
    change ((Operand.stores stores).stores?.bind fun numbers =>
      (repository.withList? list.name numbers).bind fun lists => some (Operand.lists lists)) = _
    simp [named]
  simp [Body.exec, Stmt.exec, Expr.eval, Expr.evalAll, Expr.get, Expr.self, Expr.variable?,
    Code.operand_self, Run.read, Method.scope, setter, Env.find?_cons_of_ne apart, items, collected,
    noChange, noChange', update]

theorem eval_isEmpty (host : Host World)
    (given : env.find? list.name.name = some (.stores stores)) :
    ((isEmpty list).eval host.storeMachine).run env = pure (.flag stores.isEmpty, env) := by
  have call : host.storeMachine.call (.stores stores) ⟨"is_empty", false⟩ [] =
      pure (.flag (stores.map Operand.store).isEmpty) := rfl
  have noChange : host.change? (.stores stores) ⟨"is_empty", false⟩ [] = none := rfl
  simp [isEmpty, Expr.get, Expr.eval, Expr.evalAll, Run.run_read given, noChange, call]

/-- A store stands in for a list that is empty. -/
def orStore (stores : List Nat) (store : Nat) : List Nat :=
  if stores.isEmpty then [store] else stores

theorem exec_fill {filling : Expr} (given : env.find? list.name.name = some (.stores stores))
    (gives : (filling.eval host.storeMachine).run env = pure (.store store, env)) :
    ((fill list filling).exec host.storeMachine).run env =
      pure ((), env.assign list.name.name (.stores (orStore stores store))) := by
  have empty := eval_isEmpty host given
  cases stores with
  | nil =>
    have push : host.change? (.stores []) (Naming.plain "push") [.store store] =
        some (.stores (orStore [] store)) := rfl
    simp [fill, Stmt.exec, Body.exec, Expr.eval, Expr.evalAll, empty, Run.run_inScope, gives, push,
      Run.run_read given]
  | cons first rest =>
    have same : orStore (first :: rest) store = first :: rest := rfl
    simp [fill, Stmt.exec, Body.execElse, empty, same, Env.assign_of_find? given]

theorem invoke_newStore (host : Host World) : host.storeMachine.invoke
    (Code.step [.word Naming.memoryStore] ⟨"new", false⟩) [] =
      Run.effect (Operand.store <$> World.newStore) := by
  simp only [Host.storeMachine, if_true, MemoryStore.run_constructor]
  rfl

theorem invoke_newRepository (host : Host World) (readers writers : List Nat) :
    host.storeMachine.invoke (Code.step [.word Naming.repository] ⟨"new", false⟩)
      [.stores readers, .stores writers] = pure (.lists ⟨readers, writers⟩) := by
  have other : Code.step [.word Naming.repository] ⟨"new", false⟩ ≠
      Code.step [.word Naming.memoryStore] ⟨"new", false⟩ := by decide
  simp only [Host.storeMachine, if_neg other, if_true, Repository.run_constructor]
  rfl

theorem invoke_newShared (host : Host World) (store : Nat) :
    host.storeMachine.invoke Code.newShared [.store store] = pure (.store store) := by
  refine (Host.invoke_storeMachine (by decide) (by decide) _).trans ?_
  simp only [Host.baseMachine, if_true]

theorem call_clone (host : Host World) (store : Nat) :
    host.storeMachine.call (.store store) ⟨"clone", false⟩ [] = pure (.store store) := by
  have library : host.storeMethod? ⟨"clone", false⟩ = none :=
    Host.storeMethod?_eq_none (by decide) (by decide)
  simp only [Host.storeMachine, library]
  rfl

/-- The statements of the method before and after the choice, and in it. -/
def takes : Body :=
  [.decl true StoreList.readers.name none (some (Expr.self.field StoreList.readers.name)),
    .decl true StoreList.writers.name none (some (Expr.self.field StoreList.writers.name))]

def standsIn : Body :=
  [.decl false (Naming.plain "store") (some (Code.shared [.word Naming.memoryStore]))
      (some (.invoke Code.newShared
        [.invoke (Code.step [.word Naming.memoryStore] ⟨"new", false⟩) []])),
    fill .readers ((Expr.name (Naming.plain "store")).get "clone"),
    fill .writers (.name (Naming.plain "store"))]

def answers : Body :=
  [.ret (.invoke (Code.step [.word Naming.repository] ⟨"new", false⟩)
    (StoreList.all.map fun list => .name list.name))]

theorem body_eq : build.body = some (takes ++
    .branch (.holds (.binary .or (isEmpty .readers) (isEmpty .writers))) standsIn none ::
      answers) := rfl

/-- The variables of the method, two of which are lists of stores. -/
def taken (readers writers : List Nat) (rest : Env) : Env :=
  ("writers", .stores writers) :: ("readers", .stores readers) :: rest

variable {rest : Env} {readers writers : List Nat}

theorem exec_takes (host : Host World) (readers writers : List Nat) :
    let start : Env := [("self", .lists ⟨readers, writers⟩)]
    (Body.exec host.storeMachine takes).run start = pure ((), taken readers writers start) := by
  have first : host.storeMachine.field (.lists ⟨readers, writers⟩) StoreList.readers.name =
      pure (.stores readers) := rfl
  have second : host.storeMachine.field (.lists ⟨readers, writers⟩) StoreList.writers.name =
      pure (.stores writers) := rfl
  simp [takes, Body.exec, Stmt.exec, Expr.eval, Expr.self, Code.operand_self, Run.read, first,
    second, Env.find?_cons_of_ne (show StoreList.readers.name.name ≠ "self" by decide)]
  rfl

theorem exec_standsIn (host : Host World) (readers writers : List Nat) (rest : Env) :
    (Body.exec host.storeMachine standsIn).run (taken readers writers rest) = (do
      let store ← ExceptT.lift World.newStore
      pure ((), ("store", .store store) ::
        taken (orStore readers store) (orStore writers store) rest)) := by
  have shown (store : Nat) (readers : List Nat) :
      Env.find? (("store", .store store) :: taken readers writers rest) "store" =
        some (.store store) := rfl
  have first (store : Nat) : ((fill .readers ((Expr.name ⟨"store", false⟩).get "clone")).exec
      host.storeMachine).run (("store", .store store) :: taken readers writers rest) =
        pure ((), ("store", .store store) :: taken (orStore readers store) writers rest) := by
    refine (exec_fill rfl ?_).trans rfl
    have noChange : host.change? (.store store) ⟨"clone", false⟩ [] = none := rfl
    simp [Expr.get, Expr.eval, Expr.evalAll, Run.run_read (shown store readers), call_clone,
      noChange]
  have second (store : Nat) (readers : List Nat) : ((fill .writers (.name ⟨"store", false⟩)).exec
      host.storeMachine).run (("store", .store store) :: taken readers writers rest) =
        pure ((), ("store", .store store) :: taken readers (orStore writers store) rest) := by
    refine (exec_fill rfl ?_).trans rfl
    rw [Expr.eval, Run.run_read (shown store readers)]
  simp [standsIn, Body.exec, Stmt.exec, Expr.eval, Expr.evalAll, invoke_newStore, invoke_newShared,
    first, second, Naming.plain, Run.lift_map]

theorem run_choice (host : Host World) (readers writers : List Nat) (rest : Env) (world : World) :
    let built := EntityGen.Repository.build world readers writers
    ((Stmt.exec host.storeMachine (.branch (.holds (.binary .or (isEmpty .readers)
        (isEmpty .writers))) standsIn none)).run (taken readers writers rest)).run.run world =
      (.ok ((), taken built.2.readers built.2.writers rest), built.1) := by
  intro built
  have noReaders : ((isEmpty .readers).eval host.storeMachine).run (taken readers writers rest) =
    pure (.flag readers.isEmpty, _) := eval_isEmpty host rfl
  have noWriters : ((isEmpty .writers).eval host.storeMachine).run (taken readers writers rest) =
    pure (.flag writers.isEmpty, _) := eval_isEmpty host rfl
  have raised : ((Expr.binary .or (isEmpty .readers) (isEmpty .writers)).eval
      host.storeMachine).run (taken readers writers rest) =
        pure (.flag (readers.isEmpty || writers.isEmpty), taken readers writers rest) := by
    cases readers <;> simp [Expr.eval, noReaders, noWriters]
  cases empty : readers.isEmpty || writers.isEmpty with
  | true =>
    have block := Run.run_inScope_of World.newStore (fun store => [("store", .store store)])
      (exec_standsIn host readers writers rest) (fun _ => rfl)
    have isNew : built = ({ world with stores := world.stores ++ [Store.empty] },
        ⟨orStore readers world.stores.length, orStore writers world.stores.length⟩) := if_pos empty
    simp [Stmt.exec, raised, empty, block, isNew]
    rfl
  | false =>
    have isOld : built = (world, ⟨readers, writers⟩) := if_neg (by simp [empty])
    simp [Stmt.exec, raised, empty, isOld, Body.execElse]
    rfl

theorem exec_answers (host : Host World) (readers writers : List Nat) (rest : Env) :
    (Body.exec host.storeMachine answers).run (taken readers writers rest) =
      throw (.returned (.lists ⟨readers, writers⟩)) := by
  have first : (taken readers writers rest).find? StoreList.readers.name.name =
      some (.stores readers) := rfl
  have second : (taken readers writers rest).find? StoreList.writers.name.name =
      some (.stores writers) := rfl
  simp [answers, StoreList.all, Body.exec, Stmt.exec, Expr.eval, Expr.evalAll, Run.run_read first,
    Run.run_read second, invoke_newRepository]

/-- The builder makes a repository of the lists that it has, and of a new store if one of them is
empty. -/
theorem run_build (host : Host World) (readers writers : List Nat) (world : World) :
    (build.run host.storeMachine (some (.lists ⟨readers, writers⟩)) []).run world =
      (some (.lists (EntityGen.Repository.build world readers writers).2),
        (EntityGen.Repository.build world readers writers).1) := by
  set built := EntityGen.Repository.build world readers writers
  have ends : ((Body.exec host.storeMachine (takes ++
      .branch (.holds (.binary .or (isEmpty .readers) (isEmpty .writers))) standsIn none ::
        answers)).run (build.scope (some (.lists ⟨readers, writers⟩)) [])).run.run world =
      (.error (.returned (.lists built.2)), built.1) := by
    have start : build.scope (some (.lists ⟨readers, writers⟩)) [] =
      [("self", .lists ⟨readers, writers⟩)] := rfl
    rw [start, Body.exec_append, StateT.run_bind, exec_takes, pure_bind, Body.exec,
      StateT.run_bind, Run.run_bind_of_ok (run_choice host readers writers _ world), exec_answers]
    rfl
  exact Method.run_of_ends body_eq rfl ends

end RepositoryBuilder
end Generated
end EntityGen
