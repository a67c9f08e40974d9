import EntityGen.Proofs.Execution.Positions
import EntityGen.Proofs.Execution.Rebuilding

/-! What the method that reads an entity does. The statements for its properties find the present
state of each, one after the other, and raise a flag if it has changed. The answer is the cached
entity if the flag is not raised, and otherwise what the constructor makes of the states. -/
namespace EntityGen

namespace Answers

/-- The present value of a property: an entity that it holds directly is what the method that reads
entities of its type answers, if it answers one. In a container each entity is what is stored for
it, if anything is. -/
def renew (answers : Answers) (schema : Schema) (iteration : Nat → Iteration) (datum : Datum) :
    Value :=
  match datum.type with
  | .entity target =>
    (answers.value (Naming.getMethod target.name) (schema.idOf ⟨target, datum.value⟩)).getD
      datum.value
  | type => (answers.reading schema iteration).renew datum.iteration type datum.value

/-- Whatever is answered for the entities of a property, it is the cached one. -/
def Unchanged (answers : Answers) (schema : Schema) (datum : Datum) : Prop :=
  match datum.type with
  | .entity target => ∀ latest, answers.value (Naming.getMethod target.name)
      (schema.idOf ⟨target, datum.value⟩) = some latest → latest = datum.value
  | type => ∀ held, Holds type datum.value held → ∀ latest, answers.value
      (Naming.readMethod held.type.name) (schema.idOf held) = some latest → latest = held.value

/-- The present state of a property: an entity that it holds directly is read anew. -/
def state (answers : Answers) (schema : Schema) (iteration : Nat → Iteration) (datum : Datum) :
    Value × Bool :=
  match datum.type with
  | .entity target => reconcile datum.value
      (answers.value (Naming.getMethod target.name) (schema.idOf ⟨target, datum.value⟩))
  | _ => (answers.reading schema iteration).state datum

theorem state_of_container {datum : Datum} (answers : Answers) (schema : Schema)
    (iteration : Nat → Iteration) (container : ∀ target, datum.type ≠ .entity target) :
    answers.state schema iteration datum = (answers.reading schema iteration).state datum := by
  unfold state
  split
  next target same => exact (container target same).elim
  next => rfl

theorem state_of_plain {datum : Datum} (answers : Answers) (schema : Schema)
    (iteration : Nat → Iteration) (plain : datum.type.holdsEntities = false) :
    answers.state schema iteration datum = (datum.value, false) := by
  rw [state_of_container, Generated.Get.state_of_plain plain]
  intro target same
  rw [same] at plain
  cases plain

theorem state_fst (answers : Answers) (schema : Schema) (iteration : Nat → Iteration)
    (datum : Datum) :
    (answers.state schema iteration datum).1 = answers.renew schema iteration datum := by
  unfold state renew
  split
  next => exact reconcile_fst ..
  next => exact Reading.rebuild_fst ..

theorem settled_reading_iff (answers : Answers) (schema : Schema) (iteration : Nat → Iteration)
    (held : EntityValue) : (answers.reading schema iteration).Settled held ↔
      ∀ latest, answers.value (Naming.readMethod held.type.name) (schema.idOf held) = some latest →
        latest = held.value := by
  simp only [Reading.Settled, reading, Schema.slot, value, Option.map_eq_some_iff]
  constructor
  · rintro settled _ ⟨found, answered, rfl⟩
    exact settled _ ⟨found, answered, rfl⟩
  · rintro same cell ⟨found, answered, rfl⟩
    exact same _ ⟨found, answered, rfl⟩

theorem state_clean_iff (answers : Answers) (schema : Schema) (iteration : Nat → Iteration)
    (datum : Datum) :
    (answers.state schema iteration datum).2 = false ↔ answers.Unchanged schema datum := by
  unfold state Unchanged
  split
  next => exact reconcile_clean_iff ..
  next =>
    exact (Reading.rebuild_clean_iff ..).trans
      (forall₂_congr fun held _ => settled_reading_iff answers schema iteration held)

theorem map_fst_state (answers : Answers) (schema : Schema) (iteration : Nat → Iteration)
    (data : List Datum) : (data.map (answers.state schema iteration)).map Prod.fst =
      data.map (answers.renew schema iteration) := by
  rw [List.map_map]
  exact List.map_congr_left fun datum _ => state_fst answers schema iteration datum

theorem any_state_iff (answers : Answers) (schema : Schema) (iteration : Nat → Iteration)
    (data : List Datum) : (data.map (answers.state schema iteration)).any Prod.snd ↔
      ∃ datum ∈ data, ¬ answers.Unchanged schema datum := by
  simp only [← state_clean_iff _ _ iteration, Bool.not_eq_false, List.any_map, List.any_eq_true,
    Function.comp_apply]

end Answers

namespace Generated.Get

variable {σ : Type} {host : Host σ} {answers : Answers} {env : Env} {shared : Operand}

/-- The name of the variable that is declared for a property, if there is one. -/
def IsLocalOf (x : Ident) (name : String) : Prop :=
  name = (Naming.propertyLatest x).name ∨ name = (Naming.propertyCopy x).name

theorem IsLocalOf.family {x : Ident} {name : String} (isLocal : IsLocalOf x name) :
    Naming.family name = [] := by
  rcases isLocal with rfl | rfl
  · exact Naming.family_propertyLatest x
  · exact Naming.family_propertyCopy x

theorem IsLocalOf.inj {x y : Ident} {name : String} (first : IsLocalOf x name)
    (second : IsLocalOf y name) : x.name = y.name := by
  rcases first with rfl | rfl <;> rcases second with same | same
  · exact Naming.propertyLatest_inj.mp same
  · exact (Naming.propertyCopy_ne_propertyLatest y x same.symm).elim
  · exact (Naming.propertyCopy_ne_propertyLatest x y same).elim
  · exact Naming.propertyCopy_inj.mp same

/-- The cached value of a property, which can be read whenever the cached entity is there. -/
def Cached (host : Host σ) (shared : Operand) (x : Ident) (datum : Datum) : Prop :=
  ∀ env : Env, env.find? "cached" = some shared →
    (((Expr.name cachedVar).call (Naming.getter x) []).eval host.machine).run env =
      pure (.datum datum, env)

theorem property_of_container {p : Property} (container : ∀ target, p.resolved ≠ .entity target)
    (runtime : Path) (counters : Counters) : property runtime p counters =
      let cached := (Expr.name cachedVar).call (Naming.getter p.name) []
      if p.resolved.holdsEntities then
        let copy := Naming.propertyCopy p.name
        let rebuilt := rebuild runtime p.resolved cached copy counters
        (rebuilt.1, .name copy, rebuilt.2)
      else ([], cached.cloned, counters) := by
  unfold property
  split
  next target same => exact (container target same).elim
  next => rfl

/-- Statements that are run in `env`, and an expression that is evaluated later, give the state of a
property. -/
def Refreshes (host : Host σ) (shared : Operand) (env : Env) (p : Property) (state : Value × Bool)
    (body : Body) (expr : Expr) : Prop :=
  ∃ (locals : Env) (operand : Operand), operand.valueAs? p.resolved = some state.1 ∧
    (∀ name ∈ locals.names, IsLocalOf p.name name) ∧
    (Body.exec host.machine body).run env = pure ((), locals ++ env.raise state.2) ∧
    ∀ later : Env, later.find? "cached" = some shared →
      (∀ name ∈ locals.names, later.find? name = locals.find? name) →
      (expr.eval host.machine).run later = pure (operand, later)

theorem refreshes_of_local {p : Property} {state : Value × Bool} {body : Body} {x : Ident}
    {operand : Operand} (isLocal : IsLocalOf p.name x.name)
    (given : operand.valueAs? p.resolved = some state.1)
    (run : (Body.exec host.machine body).run env =
      pure ((), (x.name, operand) :: env.raise state.2)) :
    Refreshes host shared env p state body (.name x) := by
  refine ⟨[(x.name, operand)], operand, given, ?_, run, fun later _ kept => ?_⟩
  · intro name member
    rwa [List.mem_singleton.mp member]
  · have found := (kept _ (List.mem_singleton_self _)).trans Env.find?_cons_self
    rw [Expr.eval, Run.run_read found]

theorem refreshes_property (methods : host.methods = answers.methods)
    (distinct : ∀ entity ∈ host.types, entity.Distinct) (p : Property) {datum : Datum}
    (ofType : datum.type = p.resolved) (typed : Typed host.schema datum.type datum.value)
    (cached : Cached host shared p.name datum) (counters : Counters)
    (self : env.find? "self" = some .repository) (present : env.find? "cached" = some shared) :
    let made := property host.runtime p counters
    let state := answers.state host.schema host.iteration datum
    Refreshes host shared env p state made.1 made.2.1 := by
  dsimp only
  by_cases direct : ∃ target, p.resolved = .entity target
  · obtain ⟨target, isEntity⟩ := direct
    obtain ⟨type, value, iteration⟩ := datum
    obtain rfl : type = .entity target := ofType.trans isEntity
    have run := eval_reconciled methods distinct typed self (cached env present)
      (Naming.getMethod target.name)
    simp only [property, isEntity]
    refine refreshes_of_local (.inl rfl) (valueAs?_owned (.entity target) _ _) ?_
    simp only [Body.exec, Stmt.exec, StateT.run_bind, run, pure_bind, Run.run_declare]
    rfl
  · have container : ∀ target, p.resolved ≠ .entity target := fun target same =>
      direct ⟨target, same⟩
    rw [answers.state_of_container _ _ (by rwa [ofType]), property_of_container container]
    split
    next holds =>
      have isCopy := Naming.isCopy_propertyCopy p.name counters.copies
      have rebuilds := rebuilds_of_container methods distinct p.resolved holds container
      obtain ⟨operand, given, run⟩ := rebuilds datum _ (Naming.propertyCopy p.name) counters env
        ofType (ofType ▸ typed) isCopy self fun fresh => cached _ <|
          (Env.find?_cons_of_ne (isCopy.ne (by decide) (by decide))).trans present
      exact refreshes_of_local (.inr rfl) given run
    next plain =>
      rw [← ofType] at plain
      rw [state_of_plain (Bool.eq_false_iff.mpr plain)]
      refine ⟨[], .owned datum.type datum.value, valueAs?_owned _ _ _, by simp, rfl, ?_⟩
      exact fun later present _ => Host.eval_cloned (cached later present)

/-- The statements for properties are run one after the other, and the expressions are evaluated
when all are through. No property hides a variable of another, since their names differ. -/
theorem run_properties (methods : host.methods = answers.methods)
    (distinct : ∀ entity ∈ host.types, entity.Distinct) {list : List Property}
    {fields : List Value} {iteration : Iteration} (lengths : fields.length = list.length)
    (nodup : (list.map fun p => p.name.name).Nodup)
    (typed : ∀ datum ∈ Datum.row (list.map Property.resolved) fields iteration,
      Typed host.schema datum.type datum.value)
    (cached : ∀ i (bound : i < list.length) (inside : i < fields.length), Cached host shared
      list[i].name ⟨list[i].resolved, fields[i], iteration.property i⟩) (counters : Counters)
    (self : env.find? "self" = some .repository) (present : env.find? "cached" = some shared) :
    let states := (Datum.row (list.map Property.resolved) fields iteration).map
      (answers.state host.schema host.iteration)
    let made := properties host.runtime list counters
    ∃ (locals : Env) (parts : List (Operand × Value)),
      Entity.Given list parts ∧ parts.map Prod.snd = states.map Prod.fst ∧
      (∀ name ∈ locals.names, ∃ p ∈ list, IsLocalOf p.name name) ∧
      (Body.exec host.machine made.1).run env =
        pure ((), locals ++ env.raise (states.any Prod.snd)) ∧
      ∀ later : Env, later.find? "cached" = some shared →
        (∀ name ∈ locals.names, later.find? name = locals.find? name) →
        (Expr.evalAll host.machine made.2).run later = pure (parts.map Prod.fst, later) := by
  induction list generalizing fields iteration counters env with
  | nil => exact ⟨[], [], .nil, rfl, by simp, rfl, fun _ _ _ => rfl⟩
  | cons first rest ih =>
    cases fields with
    | nil => cases lengths
    | cons field fields =>
      rw [List.map_cons, Datum.row_cons] at typed ⊢
      obtain ⟨absent, nodup⟩ := List.nodup_cons.mp nodup
      obtain ⟨locals, operand, given, names, run, evaluates⟩ := refreshes_property methods distinct
        first rfl (typed _ List.mem_cons_self) (cached 0 (by simp) (by simp)) counters self present
      set state := answers.state host.schema host.iteration
        ⟨first.resolved, field, iteration.within 0⟩
      have kept (name : String) (other : Naming.family name ≠ []) (apart : name ≠ "dirty") :
          (locals ++ env.raise state.2).find? name = env.find? name := by
        rw [Env.find?_append_of_notMem fun member => other (names name member).family,
          Env.find?_raise apart]
      have notDirty : "dirty" ∉ locals.names := fun member =>
        absurd (names _ member).family (by decide)
      obtain ⟨more, parts, all, values, others, runs, evaluatesAll⟩ := ih (Nat.succ.inj lengths)
        nodup (fun datum member => typed datum (List.mem_cons_of_mem _ member))
        (fun i bound inside =>
          cached (i + 1) (by simpa using bound) (by simpa using inside))
        (property host.runtime first counters).2.2
        ((kept "self" (by decide) (by decide)).trans self)
        ((kept "cached" (by decide) (by decide)).trans present)
      refine ⟨more ++ locals, (operand, state.1) :: parts, .cons given all, ?_, ?_, ?_, ?_⟩
      · rw [List.map_cons, values]; rfl
      · intro name member
        rw [Env.names_append, List.mem_append] at member
        rcases member with later | here
        · obtain ⟨p, inside, isLocal⟩ := others name later
          exact ⟨p, List.mem_cons_of_mem _ inside, isLocal⟩
        · exact ⟨first, List.mem_cons_self, names name here⟩
      · simp only [properties, Body.exec_append, StateT.run_bind, run, pure_bind, runs]
        rw [Env.raise_append notDirty, Env.raise_raise, List.append_assoc]
        rfl
      · intro later present found
        have apart : ∀ name ∈ locals.names, name ∉ more.names := by
          intro name here again
          obtain ⟨p, inside, isLocal⟩ := others name again
          exact absent (List.mem_map.mpr ⟨p, inside, isLocal.inj (names name here)⟩)
        have here := evaluates later present fun name member => by
          rw [found name (by simp [member]), Env.find?_append_of_notMem (apart name member)]
        have rest := evaluatesAll later present fun name member => by
          rw [found name (by simp [member]), Env.find?_append_of_mem member]
        simp [properties, Expr.evalAll, here, rest]

section Body

variable {entity : Entity} {idType : ResolvedType} {id : Value} {cached : Cell}

def start (idType : ResolvedType) (id : Value) : Env :=
  [("self", .repository), ("id", .owned idType id)]

theorem eval_read (methods : host.methods = answers.methods) (entity : Entity) :
    ((read entity).eval host.machine).run (start idType id) =
      pure (answers.operand (Naming.readMethod entity.name) id, start idType id) := by
  have self : (start idType id).find? "self" = some .repository := rfl
  have given : (start idType id).find? "id" = some (.owned idType id) := rfl
  simp [read, Expr.eval, Expr.evalAll, Expr.self, Code.operand_self, Run.run_read self, idVar,
    Naming.plain, Run.run_read given, Host.change?, Host.call, methods, Answers.methods]

def beginning (entity : Entity) : Body :=
  [.decl false cachedVar none (some (.attempt (read entity))),
    .decl true dirtyVar none (some (.literal [.plain "false"]))]

def ending (entity : Entity) (args : List Expr) : Body :=
  [.branch (.holds (.not (.name dirtyVar)))
      [.ret (.invoke Code.present [.name cachedVar])] none,
    .ret (.invoke Code.present [.invoke Code.newShared
      [.invoke (entity.type.fromStore.step ⟨"new", false⟩) args]])]

theorem rebuilding_eq (runtime : Path) (entity : Entity) :
    rebuilding runtime entity =
      beginning entity ++ (properties runtime entity.properties {}).1 ++
        ending entity (properties runtime entity.properties {}).2 := rfl

theorem exec_beginning_absent (methods : host.methods = answers.methods)
    (found : answers (Naming.readMethod entity.name) id = none) :
    (Body.exec host.machine (beginning entity)).run (start idType id) =
      throw (.returned .absent) := by
  simp [beginning, Body.exec, Stmt.exec, Expr.eval, eval_read methods, Answers.operand, found]

theorem exec_beginning_present (methods : host.methods = answers.methods)
    (found : answers (Naming.readMethod entity.name) id = some (type, cached)) :
    (Body.exec host.machine (beginning entity)).run (start idType id) =
      pure ((), ("dirty", .flag false) :: ("cached", .shared type cached) :: start idType id) := by
  simp [beginning, Body.exec, Stmt.exec, Expr.eval, eval_read methods, Answers.operand, found,
    Code.operand_false, cachedVar, dirtyVar, Naming.plain]

theorem exec_ending_clean (entity : Entity) (args : List Expr)
    (present : env.find? "cached" = some shared) (dirty : env.find? "dirty" = some (.flag false)) :
    (Body.exec host.machine (ending entity args)).run env =
      throw (.returned (.present shared)) := by
  simp [ending, Body.exec, Stmt.exec, Expr.eval, Expr.evalAll, dirtyVar, cachedVar, Naming.plain,
    Run.run_read dirty, Run.inScope, Run.run_read present]

theorem exec_ending_changed {args : List Expr} {parts : List (Operand × Value)}
    (known : host.entity? entity.type = some entity) (distinct : entity.Distinct)
    (given : Entity.Given entity.properties parts)
    (evaluates : (Expr.evalAll host.machine args).run env = pure (parts.map Prod.fst, env))
    (dirty : env.find? "dirty" = some (.flag true)) :
    (Body.exec host.machine (ending entity args)).run env = (do
      let tag ← ExceptT.lift host.allocate
      throw (.returned (.present (.shared entity.type ⟨tag, .seq (parts.map Prod.snd)⟩)))) := by
  simp [ending, Body.exec, Stmt.exec, Expr.eval, Expr.evalAll, dirtyVar, Naming.plain,
    Run.run_read dirty, Body.execElse, evaluates, Host.invoke_construct known distinct given]

theorem exec_rebuilding (methods : host.methods = answers.methods)
    (distinct : ∀ entity ∈ host.types, entity.Distinct)
    (known : host.entity? entity.type = some entity)
    (typed : Typed host.schema (.entity entity.type) cached.value)
    (found : answers (Naming.readMethod entity.name) id = some (entity.type, cached)) :
    let data := host.schema.data ⟨entity.type, cached.value⟩ (host.iteration cached.tag)
    let states := data.map (answers.state host.schema host.iteration)
    (Body.exec host.machine (rebuilding host.runtime entity)).run (start idType id) =
      if states.any Prod.snd then do
        let tag ← ExceptT.lift host.allocate
        throw (.returned (.present (.shared entity.type ⟨tag, .seq (states.map Prod.fst)⟩)))
      else throw (.returned (.present (.shared entity.type cached))) := by
  intro data states
  have own := distinct entity (List.mem_of_find?_eq_some known)
  have typedData : ∀ datum ∈ data, Typed host.schema datum.type datum.value :=
    fun _ => Schema.typed_of_mem_data typed
  obtain ⟨fields, whole, lengths⟩ := Host.fields_of_typed known typed
  obtain ⟨tag, value⟩ := cached
  obtain rfl : value = .seq fields := whole
  have isRow : data = Datum.row (entity.properties.map Property.resolved) fields
      (host.iteration tag) := by
    rw [← Host.properties_schema known]
    rfl
  let shared : Operand := .shared entity.type ⟨tag, .seq fields⟩
  let env : Env := ("dirty", .flag false) :: ("cached", shared) :: start idType id
  obtain ⟨locals, parts, given, values, names, run, evaluates⟩ := run_properties methods distinct
    lengths own.nodup (isRow ▸ typedData)
    (fun i bound inside env present => Host.eval_getter present known own bound inside) {}
    (rfl : env.find? "self" = some .repository) (rfl : env.find? "cached" = some shared)
  rw [← isRow] at values run
  have kept (name : String) (other : Naming.family name ≠ []) (changed : Bool) :
      (locals ++ env.raise changed).find? name = (env.raise changed).find? name :=
    Env.find?_append_of_notMem fun member => by
      obtain ⟨p, -, isLocal⟩ := names name member
      exact other isLocal.family
  have present (changed : Bool) : (locals ++ env.raise changed).find? "cached" = some shared := by
    rw [kept "cached" (by decide), Env.find?_raise (by decide)]
    rfl
  have dirty (changed : Bool) :
      (locals ++ env.raise changed).find? "dirty" = some (.flag changed) := by
    rw [kept "dirty" (by decide)]
    cases changed <;> rfl
  rw [rebuilding_eq, Body.exec_append, Body.exec_append, StateT.run_bind, StateT.run_bind,
    exec_beginning_present methods found, pure_bind, run, pure_bind]
  change (Body.exec host.machine _).run (locals ++ env.raise (states.any Prod.snd)) = _
  cases states.any Prod.snd with
  | false => exact exec_ending_clean entity _ (present false) (dirty false)
  | true =>
    have all := evaluates (locals ++ env.raise true) (present true) fun name member =>
      Env.find?_append_of_mem member
    rw [exec_ending_changed known own given all (dirty true), values]
    rfl

/-- Without entities in any property the method is that which reads from the stores. -/
theorem run_of_plain (host : Host σ) (methods : host.methods = answers.methods)
    (plain : (entity.properties.any fun p => p.resolved.holdsEntities) = false) :
    (method host.runtime entity).run host.machine (some .repository) [.owned idType id] =
      pure (some (answers.operand (Naming.readMethod entity.name) id)) := by
  have isBody : (method host.runtime entity).body = some [.ret (read entity)] := by
    simp [method, body, plain]
  refine Method.run_of_pure_returned isBody rfl ?_
  change (Body.exec host.machine [.ret (read entity)]).run (start idType id) = _
  simp [Body.exec, Stmt.exec, eval_read methods]

theorem body_eq_of_holding (runtime : Path)
    (holding : (entity.properties.any fun p => p.resolved.holdsEntities) = true) :
    (method runtime entity).body = some (rebuilding runtime entity) := by
  simp [method, body, holding]

theorem run_absent (host : Host σ) (methods : host.methods = answers.methods) (entity : Entity)
    (found : answers (Naming.readMethod entity.name) id = none) :
    (method host.runtime entity).run host.machine (some .repository) [.owned idType id] =
      pure (some .absent) := by
  cases holds : entity.properties.any fun p => p.resolved.holdsEntities with
  | false => rw [run_of_plain host methods holds, Answers.operand, found]
  | true =>
    refine Method.run_of_pure_returned (body_eq_of_holding _ holds) rfl ?_
    change (Body.exec host.machine (rebuilding host.runtime entity)).run (start idType id) = _
    rw [rebuilding_eq, Body.exec_append, Body.exec_append, StateT.run_bind, StateT.run_bind,
      exec_beginning_absent methods found]
    rfl

/-- A cached entity is answered as it is, or made anew if one of its properties has changed. -/
theorem run_cached (host : Host σ) (methods : host.methods = answers.methods)
    (distinct : ∀ entity ∈ host.types, entity.Distinct)
    (known : host.entity? entity.type = some entity)
    (typed : Typed host.schema (.entity entity.type) cached.value)
    (found : answers (Naming.readMethod entity.name) id = some (entity.type, cached)) :
    let data := host.schema.data ⟨entity.type, cached.value⟩ (host.iteration cached.tag)
    let states := data.map (answers.state host.schema host.iteration)
    (method host.runtime entity).run host.machine (some .repository) [.owned idType id] =
      if states.any Prod.snd then do
        let tag ← host.allocate
        return some (.present (.shared entity.type ⟨tag, .seq (states.map Prod.fst)⟩))
      else pure (some (.present (.shared entity.type cached))) := by
  intro data states
  cases holds : entity.properties.any fun p => p.resolved.holdsEntities with
  | false =>
    have clean : ¬ states.any Prod.snd = true := by
      simp only [states, List.any_map, List.any_eq_true, not_exists, not_and]
      intro datum member
      have ofType := Schema.type_mem_of_mem_data member
      rw [Host.properties_schema known] at ofType
      obtain ⟨p, declared, same⟩ := List.mem_map.mp ofType
      have plain : datum.type.holdsEntities = false :=
        same ▸ Bool.eq_false_iff.mpr (List.any_eq_false.mp holds p declared)
      simp [answers.state_of_plain _ _ plain]
    rw [if_neg clean, run_of_plain host methods holds, Answers.operand, found]
  | true =>
    have isBody := body_eq_of_holding host.runtime holds
    have exec : (Body.exec host.machine (rebuilding host.runtime entity)).run (start idType id) =
        if states.any Prod.snd then _ else _ := exec_rebuilding methods distinct known typed found
    split at exec <;> rename_i changed
    · rw [if_pos changed]
      exact Method.run_of_returned host.allocate _ isBody rfl exec
    · rw [if_neg changed]
      exact Method.run_of_pure_returned isBody rfl exec

end Body

/-- The constructor is called with one argument for each property, in the order of declaration. -/
theorem forall₂_properties (runtime : Path) (list : List Property) (counters : Counters) :
    List.Forall₂ (fun p arg => ∃ counters, arg = (property runtime p counters).2.1) list
      (properties runtime list counters).2 := by
  induction list generalizing counters with
  | nil => exact .nil
  | cons first rest ih => exact .cons ⟨counters, rfl⟩ (ih _)

/-- The method that reads an entity finds none if there is none in the stores. Otherwise it answers
with the cached one, unless an entity that is read again for it has changed; then it answers with a
new one, made by the constructor from the present values of all properties. -/
theorem run_get {specs : List Spec} {entity : Entity}
    (member : entity ∈ (Resolution.ofSpecs specs).entities)
    (distinct : ∀ entity ∈ (Resolution.ofSpecs specs).entities, entity.Distinct)
    (runtime : Path) (answers : Answers) (allocate : StateM σ Nat) (iteration : Nat → Iteration)
    (idType : ResolvedType) (id : Value)
    (typed : ∀ type cell, answers (Naming.readMethod entity.name) id = some (type, cell) →
      type = entity.type ∧
        Typed (Resolution.ofSpecs specs).schema (.entity entity.type) cell.value) :
    let host : Host σ :=
      ⟨runtime, (Resolution.ofSpecs specs).entities, answers.methods, allocate, iteration⟩
    let answer := (method runtime entity).run host.machine (some .repository) [.owned idType id]
    List.Forall₂ (fun p arg => ∃ counters, arg = (property runtime p counters).2.1)
        entity.properties (properties runtime entity.properties {}).2 ∧
      match answers (Naming.readMethod entity.name) id with
      | none => answer = pure (some .absent)
      | some (_, cached) =>
        let data := host.schema.data ⟨entity.type, cached.value⟩ (iteration cached.tag)
        ((∀ datum ∈ data, answers.Unchanged host.schema datum) →
          answer = pure (some (.present (.shared entity.type cached)))) ∧
        ((∃ datum ∈ data, ¬ answers.Unchanged host.schema datum) →
          answer = do
            let tag ← allocate
            let renewed := data.map (answers.renew host.schema iteration)
            return some (.present (.shared entity.type ⟨tag, .seq renewed⟩))) := by
  intro host answer
  refine ⟨forall₂_properties runtime entity.properties {}, ?_⟩
  have known : host.entity? entity.type = some entity := Host.entity?_of_mem rfl member
  split
  next found => exact run_absent host rfl entity found
  next type cached found =>
    intro data
    obtain ⟨rfl, typed⟩ := typed _ _ found
    have run : answer = _ := run_cached host rfl distinct known typed found
    have changes := answers.any_state_iff host.schema host.iteration data
    simp only [Answers.map_fst_state] at run
    constructor
    · intro unchanged
      refine run.trans (if_neg fun changed => ?_)
      obtain ⟨datum, inside, changed⟩ := changes.mp changed
      exact changed (unchanged datum inside)
    · intro changed
      exact run.trans (if_pos (changes.mpr changed))

end Generated.Get

namespace Library

/-- A book is stored with an old version of its main author, who also has a role in it. Only the
method that reads authors finds the new version; in the stores there is one for the other author. -/
def answers : Answers := fun name id =>
  if name = Naming.readMethod book.name then
    some (book.type, ⟨0, bookValue 1 (authorValue 7 "ada")
      [(.int 1, [authorValue 8 "bea", authorValue 7 "ada"])]⟩)
  else if name = Naming.getMethod author.name then
    some (author.type, ⟨1, authorValue 7 "Ada"⟩)
  else if name = Naming.readMethod author.name ∧ id = .int 8 then
    some (author.type, ⟨2, authorValue 8 "Bea"⟩)
  else none

/-- The main author is read anew, the authors in the roles come from the stores. -/
theorem run_get_book :
    let host : Host Unit := ⟨⟨false, []⟩, (Resolution.ofSpecs specs).entities, answers.methods,
      pure 5, fun _ => Iteration.sorted⟩
    (Generated.Get.method ⟨false, []⟩ book).run host.machine (some .repository)
        [.owned (.leaf number) (.int 1)] =
      pure (some (.present (.shared book.type ⟨5, bookValue 1 (authorValue 7 "Ada")
        [(.int 1, [authorValue 8 "Bea", authorValue 7 "ada"])]⟩))) := by
  intro host
  have member : book ∈ (Resolution.ofSpecs specs).entities := List.get_mem _ _
  have typed : ∀ type cell, answers (Naming.readMethod book.name) (.int 1) = some (type, cell) →
      type = book.type ∧ Typed schema (.entity book.type) cell.value := by
    intro type cell found
    obtain ⟨rfl, rfl⟩ := Prod.mk.inj (Option.some.inj found)
    refine ⟨rfl, typed_book 1 (typed_author 7 "ada") (by simp [Value.Ascending]) ?_⟩
    intro role among
    obtain rfl := List.mem_singleton.mp among
    intro other contained
    rcases List.mem_pair.mp contained with rfl | rfl <;> exact typed_author ..
  obtain ⟨-, answer⟩ := Generated.Get.run_get member (by decide) ⟨false, []⟩ answers
    (pure 5 : StateM Unit Nat) (fun _ => Iteration.sorted) (.leaf number) (.int 1) typed
  have changed := answer.2 ⟨_, List.mem_cons_of_mem _ List.mem_cons_self, fun same => ?_⟩
  · exact changed
  · exact absurd (same (authorValue 7 "Ada") rfl) (by decide)

end Library
end EntityGen
