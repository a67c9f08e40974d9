import EntityGen.Generated.Put
import EntityGen.Proofs.Execution.Calls
import EntityGen.Proofs.Execution.Locals
import EntityGen.Proofs.Execution.Positions

/-! What the method that stores an entity does. The loops that are generated for a property meet
each entity in it once, and each is put as it is met; so a run of the method is one write and one
put after the other, whatever writes and puts do to the world. -/
namespace EntityGen

/-- What the method that stores an entity calls on its repository: a method that writes a shared
entity to the stores, and one that puts an entity. Both are known by their names. -/
structure Storage (σ : Type) where
  write : Ident → EntityType → Cell → StateM σ Unit
  put : Ident → EntityValue → StateM σ DirtySet

namespace Storage

variable {σ : Type}

def methods (storage : Storage σ) (name : Ident) : List Operand → StateM σ Operand
  | [.shared type cell] => do
    storage.write name type cell
    return .nothing
  | [.owned (.entity type) value] => do return .dirtySet (← storage.put name ⟨type, value⟩)
  | _ => return .nothing

/-- Puts entities one after the other, each by the method of its type, and adds to a set what is
reported. -/
def putAll (storage : Storage σ) (schema : Schema) (set : DirtySet) (entities : List EntityValue) :
    StateM σ DirtySet :=
  entities.foldlM (fun set held => do
    let more ← storage.put (Naming.putMethod held.type.name) held
    return DirtySet.merge schema set more) set

end Storage

namespace Generated.Put

variable {σ α : Type} {host : Host σ} {storage : Storage σ} {env : Env} {source : Expr}
  {found : List EntityValue}

/-- A block puts entities and adds what is reported to the dirty set; all else is as it was. -/
def Puts (host : Host σ) (storage : Storage σ) (block : Run σ Unit) (env : Env)
    (found : List EntityValue) : Prop :=
  ∀ set, block.run (env.assign "dirty" (.dirtySet set)) = (do
    let set ← ExceptT.lift (storage.putAll host.schema set found)
    pure ((), env.assign "dirty" (.dirtySet set)))

/-- An expression gives an operand whatever the dirty set is. -/
def Gives (host : Host σ) (source : Expr) (env : Env) (operand : Operand) : Prop :=
  ∀ set, (source.eval host.machine).run (env.assign "dirty" (.dirtySet set)) =
    pure (operand, env.assign "dirty" (.dirtySet set))

namespace Puts

theorem nothing : Puts host storage (pure ()) env [] := by
  intro set
  simp [Storage.putAll]

theorem andThen {first second : Run σ Unit} (before : Puts host storage first env found)
    (after : Puts host storage second env more) :
    Puts host storage (do first; second) env (found ++ more) := by
  intro set
  simp only [StateT.run_bind, before set, bind_assoc, pure_bind, after _, Storage.putAll,
    List.foldlM_append, ExceptT.lift_bind]

theorem each {items : List α} {block : α → Run σ Unit} {found : α → List EntityValue}
    (inside : ∀ item ∈ items, Puts host storage (block item) env (found item)) :
    Puts host storage (items.forM block) env (items.flatMap found) := by
  induction items with
  | nil => exact nothing
  | cons first rest ih =>
    exact (inside first List.mem_cons_self).andThen
      (ih fun item member => inside item (List.mem_cons_of_mem _ member))

/-- A block whose variables are not the dirty set. -/
theorem inScope {binds block : Run σ Unit} (locals : Env) (apart : "dirty" ∉ locals.names)
    (declares : ∀ env, binds.run env = pure ((), locals ++ env))
    (inside : Puts host storage block (locals ++ env) found) :
    Puts host storage (Run.inScope do binds; block) env found := by
  intro set
  refine Run.run_inScope_of _ (fun _ => locals) ?_ (by simp)
  rw [StateT.run_bind, declares, pure_bind, ← Env.assign_append_of_notMem apart, inside set]
  simp only [Env.assign_append_of_notMem apart]

end Puts

/-- An entity is put as the storage puts it. -/
def Serves (host : Host σ) (storage : Storage σ) (held : EntityValue) : Prop :=
  host.methods (Naming.putMethod held.type.name) [.owned (.entity held.type) held.value] = (do
    return .dirtySet (← storage.put (Naming.putMethod held.type.name) held))

/-- An entity is written as the storage writes it, once it is shared. -/
def Writes (host : Host σ) (storage : Storage σ) (name : Ident) (own : EntityValue) : Prop :=
  ∀ tag, host.methods name [.shared own.type ⟨tag, own.value⟩] = (do
    storage.write name own.type ⟨tag, own.value⟩
    return .nothing)

structure Ready (env : Env) : Prop where
  self : env.find? "self" = some .repository
  dirty : (env.find? "dirty").isSome

theorem Ready.declare {x : Ident} (ready : Ready env) (isVar : Naming.IsLoopVar x)
    (operand : Operand) : Ready ((x.name, operand) :: env) where
  self := by rw [Env.find?_cons_of_ne (isVar.ne (by decide)), ready.self]
  dirty := by rw [Env.find?_cons_of_ne (isVar.ne (by decide))]; exact ready.dirty

theorem puts_store (serves : Serves host storage ⟨target, value⟩) (ready : Ready env)
    (gives : Gives host source env (.datum ⟨.entity target, value, iteration⟩)) :
    Puts host storage ((store target source).exec host.machine) env [⟨target, value⟩] := by
  intro set
  obtain ⟨old, declared⟩ := Option.isSome_iff_exists.mp ready.dirty
  have dirty : (env.assign "dirty" (.dirtySet set)).find? "dirty" = some (.dirtySet set) :=
    Env.find?_assign_self declared
  have self : (env.assign "dirty" (.dirtySet set)).find? "self" = some .repository := by
    rw [Env.find?_assign_of_ne (by decide), ready.self]
  have put : host.methods (Naming.putMethod target.name) [.owned (.entity target) value] = _ :=
    serves
  simp [store, Stmt.exec, Expr.eval, Expr.evalAll, dirtyVar, Naming.plain, Run.run_read dirty,
    Expr.self, Code.operand_self, Run.run_read self, Expr.cloned, gives set, Host.change?,
    Host.call, put, Storage.putAll, Run.lift_map, Env.assign_assign]

theorem gives_var {x : Ident} {operand : Operand} (isVar : Naming.IsLoopVar x)
    (found : env.find? x.name = some operand) : Gives host (.name x) env operand := by
  intro set
  have kept : (env.assign "dirty" (.dirtySet set)).find? x.name = some operand := by
    rw [Env.find?_assign_of_ne (isVar.ne (by decide)), found]
  rw [Expr.eval, Run.run_read kept]

theorem gives_iterate {datum : Datum} (gives : Gives host source env (.datum datum))
    (name : String) (items : datum.iterate? name = some operands) :
    Gives host (source.get name) env (.sequence operands) := by
  intro set
  simp [Expr.get, Expr.eval, Expr.evalAll, gives set, Host.change?, Host.call, items]

/-- A loop whose body puts the entities of each item. -/
theorem puts_loop {items : List α} {operand : α → Operand} {found : α → List EntityValue}
    {inner : Body} (gives : Gives host source env (.sequence (items.map operand)))
    (locals : α → Env) (apart : ∀ item, "dirty" ∉ (locals item).names)
    (binds : ∀ item env, (binding.bind σ (operand item)).run env = pure ((), locals item ++ env))
    (inside : ∀ item ∈ items,
      Puts host storage (Body.exec host.machine inner) (locals item ++ env) (found item)) :
    Puts host storage (Body.exec host.machine [.each binding source inner]) env
      (items.flatMap found) := by
  have loop := Puts.each fun item member =>
    Puts.inScope (locals item) (apart item) (binds item) (inside item member)
  intro set
  have run := loop set
  simp only [List.forM_eq_forM] at run
  simp [Body.exec, Stmt.exec, gives set, run]

theorem puts_append {first second : Body}
    (before : Puts host storage (Body.exec host.machine first) env found)
    (after : Puts host storage (Body.exec host.machine second) env more) :
    Puts host storage (Body.exec host.machine (first ++ second)) env (found ++ more) := by
  rw [Body.exec_append]
  exact before.andThen after

/-- What is generated for a value puts each entity in it. -/
theorem puts_walk
    (serves : ∀ held ∈ Datum.positions ⟨type, value, iteration⟩, Serves host storage held)
    (loops : Nat) (ready : Ready env)
    (gives : Gives host source env (.datum ⟨type, value, iteration⟩)) :
    Puts host storage (Body.exec host.machine (walk type source loops).1) env
      (positions type value iteration) := by
  change Puts _ _ _ _ (Datum.positions ⟨type, value, iteration⟩)
  induction type using ResolvedType.holdsEntities.induct
    generalizing source env value iteration loops with
  | case1 | case5 => exact Puts.nothing
  | case2 target =>
    intro set
    have put := puts_store (serves _ List.mem_cons_self) ready gives set
    simp [walk, Body.exec, put, Datum.positions, positions]
  | case3 kind elem ih =>
    rw [walk]
    split
    next holds =>
      have isVar := Naming.isLoopVar_itemVar loops
      rw [Datum.positions_list] at serves ⊢
      refine puts_loop (gives_iterate gives "iter" rfl)
        (fun item => [((Naming.itemVar loops).name, .datum item)])
        (fun item => by simpa using (isVar.ne (by decide)).symm) (fun item env => rfl) ?_
      rintro ⟨type, value, iteration⟩ member
      obtain rfl : type = elem := Datum.type_of_mem_elements member
      exact ih (fun held among => serves held (List.mem_flatMap.mpr ⟨_, member, among⟩)) _
        (ready.declare isVar _) (gives_var isVar Env.find?_cons_self)
    next plain =>
      have plain : (ResolvedType.list kind elem).holdsEntities = false :=
        Bool.eq_false_iff.mpr plain
      rw [Datum.positions_of_plain plain]
      exact Puts.nothing
  | case4 kind keyType valueType keys values =>
    have keyVar := Naming.isLoopVar_keyVar loops
    have valueVar := Naming.isLoopVar_valueVar loops
    have apart := Naming.valueVar_ne_keyVar loops loops
    have noKey : "dirty" ≠ (Naming.keyVar loops).name := (keyVar.ne (by decide)).symm
    have noValue : "dirty" ≠ (Naming.valueVar loops).name := (valueVar.ne (by decide)).symm
    rw [Datum.positions_map] at serves ⊢
    have inside (entry : Datum × Datum)
        (member : entry ∈ Datum.entries ⟨.map kind keyType valueType, value, iteration⟩) :
        (∀ held ∈ entry.1.positions, Serves host storage held) ∧
          ∀ held ∈ entry.2.positions, Serves host storage held :=
      List.forall_mem_append.mp fun held among =>
        serves held (List.mem_flatMap.mpr ⟨entry, member, among⟩)
    rw [walk]
    split
    next bothHold =>
      refine puts_loop (gives_iterate gives "iter" rfl)
        (fun entry => [((Naming.valueVar loops).name, .datum entry.2),
          ((Naming.keyVar loops).name, .datum entry.1)])
        (fun entry => by simpa using ⟨noValue, noKey⟩)
        (fun entry env => rfl) ?_
      rintro ⟨⟨type, key, iteration⟩, ⟨other, value, order⟩⟩ member
      obtain ⟨ofKey, ofValue⟩ := inside _ member
      obtain ⟨rfl, rfl⟩ := Datum.types_of_mem_entries member
      have ready := (ready.declare keyVar (.datum ⟨type, key, iteration⟩)).declare valueVar
        (.datum ⟨other, value, order⟩)
      refine puts_append (keys ofKey _ ready (gives_var keyVar ?_))
        (values ofValue _ ready (gives_var valueVar Env.find?_cons_self))
      exact (Env.find?_cons_of_ne apart).trans Env.find?_cons_self
    next keysHold valuesPlain =>
      refine puts_loop (gives_iterate gives "keys" rfl)
        (fun entry => [((Naming.keyVar loops).name, .datum entry.1)])
        (fun entry => by simpa using noKey) (fun entry env => rfl) ?_
      rintro ⟨⟨type, key, iteration⟩, ⟨other, value, order⟩⟩ member
      have ofKey := (inside _ member).1
      obtain ⟨rfl, rfl⟩ := Datum.types_of_mem_entries member
      rw [Datum.positions_of_plain valuesPlain, List.append_nil]
      exact keys ofKey _ (ready.declare keyVar _) (gives_var keyVar Env.find?_cons_self)
    next keysPlain valuesHold =>
      refine puts_loop (gives_iterate gives "values" rfl)
        (fun entry => [((Naming.valueVar loops).name, .datum entry.2)])
        (fun entry => by simpa using noValue) (fun entry env => rfl) ?_
      rintro ⟨⟨type, key, iteration⟩, ⟨other, value, order⟩⟩ member
      have ofValue := (inside _ member).2
      obtain ⟨rfl, rfl⟩ := Datum.types_of_mem_entries member
      rw [Datum.positions_of_plain keysPlain, List.nil_append]
      exact values ofValue _ (ready.declare valueVar _) (gives_var valueVar Env.find?_cons_self)
    next keysPlain valuesPlain =>
      have plain : (ResolvedType.map kind keyType valueType).holdsEntities = false := by
        rw [ResolvedType.holdsEntities, keysPlain, valuesPlain]; rfl
      rw [← Datum.positions_map, Datum.positions_of_plain plain]
      exact Puts.nothing

/-- What is generated for properties puts the entities in each, one property after the other. -/
theorem puts_walkAll {properties : List Property} {fields : List Value}
    (serves : ∀ held ∈ (Datum.row (properties.map Property.resolved) fields iteration).flatMap
      Datum.positions, Serves host storage held)
    (lengths : fields.length = properties.length) (loops : Nat) (ready : Ready env)
    (gives : ∀ i (bound : i < properties.length) (inside : i < fields.length), Gives host
      ((Expr.name entityVar).call (Naming.getter properties[i].name) []) env
      (.datum ⟨properties[i].resolved, fields[i], iteration.property i⟩)) :
    Puts host storage (Body.exec host.machine (walkAll properties loops)) env <|
      (Datum.row (properties.map Property.resolved) fields iteration).flatMap Datum.positions := by
  induction properties generalizing fields iteration loops with
  | nil => exact Puts.nothing
  | cons first rest ih =>
    cases fields with
    | nil => cases lengths
    | cons field fields =>
      rw [List.map_cons, Datum.row_cons, List.flatMap_cons] at serves ⊢
      obtain ⟨here, later⟩ := List.forall_mem_append.mp serves
      exact puts_append (puts_walk here loops ready (gives 0 (by simp) (by simp)))
        (ih later (Nat.succ.inj lengths) _ fun i bound inside =>
          gives (i + 1) (by simpa using bound) (by simpa using inside))

def ownPart (entity : Entity) : Body :=
  let own := Expr.invoke Code.cloneShared [(Expr.name entityVar).borrow]
  [.decl false entityVar none (some (.invoke Code.newShared [.name entityVar])),
    .decl true dirtyVar none (some (.invoke (Code.hashSet.step ⟨"new", false⟩) [])),
    .expr ((Expr.name dirtyVar).call (Naming.plain "insert")
      [.invoke (Code.step [.word Naming.entityRef] ⟨"from", false⟩) [own]]),
    .expr (Expr.self.call (Naming.writeMethod entity.name) [own])]

theorem body_eq (entity : Entity) :
    body entity = ownPart entity ++ walkAll entity.properties 0 ++ [.ret (.name dirtyVar)] := rfl

/-- The variables after these statements; `tag` is that of the shared entity. -/
def stored (entity : EntityValue) (tag : Nat) : Env :=
  [("dirty", .dirtySet [entity]), ("entity", .shared entity.type ⟨tag, entity.value⟩),
    ("self", .repository), ("entity", .owned (.entity entity.type) entity.value)]

/-- The entity is shared and written, and is the only one in the dirty set. -/
theorem exec_ownPart {entity : Entity} {own : EntityValue}
    (writes : Writes host storage (Naming.writeMethod entity.name) own) :
    (Body.exec host.machine (ownPart entity)).run
        [("self", .repository), ("entity", .owned (.entity own.type) own.value)] = (do
      let tag ← ExceptT.lift host.allocate
      ExceptT.lift (storage.write (Naming.writeMethod entity.name) own.type ⟨tag, own.value⟩)
      pure ((), stored own tag)) := by
  simp [ownPart, stored, Body.exec, Stmt.exec, Expr.eval, Expr.evalAll, Expr.borrow, Expr.self,
    Code.operand_self, entityVar, dirtyVar, Naming.plain, Run.read, Env.find?_cons_of_ne,
    Host.change?, Host.call, writes _, DirtySet.insert, Run.lift_map]

theorem gives_getter {entity : Entity} {fields : List Value} {type : EntityType} {tag i : Nat}
    (known : host.entity? type = some entity) (distinct : entity.Distinct)
    (bound : i < entity.properties.length) (inside : i < fields.length)
    (shared : env.find? "entity" = some (.shared type ⟨tag, .seq fields⟩)) :
    Gives host ((Expr.name entityVar).call (Naming.getter entity.properties[i].name) []) env
      (.datum ⟨entity.properties[i].resolved, fields[i], (host.iteration tag).property i⟩) := by
  intro set
  have kept : (env.assign "dirty" (.dirtySet set)).find? "entity" =
      some (.shared type ⟨tag, .seq fields⟩) := by
    rw [Env.find?_assign_of_ne (by decide), shared]
  exact Host.eval_getter kept known distinct bound inside

theorem exec_body {entity : Entity} {fields : List Value} {own : EntityValue}
    (isOwn : own = ⟨entity.type, .seq fields⟩)
    (known : host.entity? entity.type = some entity) (distinct : entity.Distinct)
    (lengths : fields.length = entity.properties.length)
    (writes : Writes host storage (Naming.writeMethod entity.name) own)
    (serves : ∀ tag, ∀ held ∈ host.schema.held own (host.iteration tag), Serves host storage held) :
    (Body.exec host.machine (body entity)).run
        [("self", .repository), ("entity", .owned (.entity own.type) own.value)] = (do
      let set ← ExceptT.lift (do
        let tag ← host.allocate
        storage.write (Naming.writeMethod entity.name) own.type ⟨tag, own.value⟩
        storage.putAll host.schema [own] (host.schema.held own (host.iteration tag)))
      throw (.returned (.dirtySet set))) := by
  subst isOwn
  set own : EntityValue := ⟨entity.type, .seq fields⟩
  have held (tag : Nat) : host.schema.held own (host.iteration tag) =
      (Datum.row (entity.properties.map Property.resolved) fields (host.iteration tag)).flatMap
        Datum.positions := by
    simp only [Schema.held, Schema.data, own, Host.properties_schema known]
  have walked (tag : Nat) := puts_walkAll (held tag ▸ serves tag) lengths 0
    (⟨rfl, rfl⟩ : Ready (stored own tag))
    (fun i bound inside => gives_getter known distinct bound inside rfl) [own]
  have unassigned (tag : Nat) :
      (stored own tag).assign "dirty" (.dirtySet [own]) = stored own tag := Env.assign_of_find? rfl
  have answers (tag : Nat) (set : DirtySet) :
      (Body.exec host.machine [.ret (.name dirtyVar)]).run
          ((stored own tag).assign "dirty" (.dirtySet set)) =
        throw (.returned (.dirtySet set)) := by
    have found : ((stored own tag).assign "dirty" (.dirtySet set)).find? "dirty" =
        some (.dirtySet set) := Env.find?_assign_self rfl
    simp [Body.exec, Stmt.exec, Expr.eval, dirtyVar, Naming.plain, Run.run_read found]
  simp only [unassigned] at walked
  simp [body_eq, Body.exec_append, exec_ownPart writes, walked, answers, held, ExceptT.lift_bind]

theorem run_method {entity : Entity} {value : Value}
    (known : host.entity? entity.type = some entity) (distinct : entity.Distinct)
    (typed : Typed host.schema (.entity entity.type) value)
    (writes : Writes host storage (Naming.writeMethod entity.name) ⟨entity.type, value⟩)
    (serves : ∀ tag, ∀ held ∈ host.schema.held ⟨entity.type, value⟩ (host.iteration tag),
      Serves host storage held) :
    let own : EntityValue := ⟨entity.type, value⟩
    (method entity).run host.machine (some .repository) [.owned (.entity entity.type) value] = (do
      let tag ← host.allocate
      storage.write (Naming.writeMethod entity.name) entity.type ⟨tag, value⟩
      let set ← storage.putAll host.schema [own] (host.schema.held own (host.iteration tag))
      return some (.dirtySet set)) := by
  intro own
  obtain ⟨fields, rfl, lengths⟩ := Host.fields_of_typed known typed
  have runs := exec_body rfl known distinct lengths writes serves
  exact (Method.run_of_returned _ .dirtySet rfl rfl runs).trans (by simp [own])

/-- The method that stores an entity writes it once and then puts each entity that it holds, in
order, each once; it answers with the set of the entity and of all that the puts have reported. -/
theorem run_put {specs : List Spec} {entity : Entity} {value : Value}
    (member : entity ∈ (Resolution.ofSpecs specs).entities) (distinct : entity.Distinct)
    (typed : Typed (Resolution.ofSpecs specs).schema (.entity entity.type) value)
    (runtime : Path) (storage : Storage σ) (allocate : StateM σ Nat)
    (iteration : Nat → Iteration) :
    let host : Host σ :=
      ⟨runtime, (Resolution.ofSpecs specs).entities, storage.methods, allocate, iteration⟩
    let own : EntityValue := ⟨entity.type, value⟩
    (method entity).run host.machine (some .repository) [.owned (.entity entity.type) value] = (do
      let tag ← allocate
      storage.write (Naming.writeMethod entity.name) entity.type ⟨tag, value⟩
      let set ← storage.putAll host.schema [own] (host.schema.held own (iteration tag))
      return some (.dirtySet set)) := by
  intro host own
  have known : host.entity? entity.type = some entity := Host.entity?_of_mem rfl member
  exact run_method known distinct typed (fun _ => rfl) fun _ _ _ => rfl

end Generated.Put

/-- A storage that notes what it is asked for, and in which a put stores only the entity itself. -/
def Storage.noting : Storage (List (Ident × EntityValue)) where
  write name type cell := modify fun notes => notes ++ [(name, ⟨type, cell.value⟩)]
  put name held := do
    modify fun notes => notes ++ [(name, held)]
    return [held]

/-- An author who stands in a book twice is put twice, but is in the dirty set once. -/
theorem Library.run_put_book :
    let host : Host (List (Ident × EntityValue)) :=
      ⟨⟨false, []⟩, (Resolution.ofSpecs specs).entities, Storage.noting.methods, pure 0,
        fun _ => Iteration.sorted⟩
    let ada := authorValue 7 "ada"
    let bea := authorValue 8 "bea"
    let value := bookValue 1 ada [(.int 1, [bea, ada])]
    (((Generated.Put.method book).run host.machine (some .repository)
        [.owned (.entity book.type) value]).run []) =
      (some (.dirtySet [⟨book.type, value⟩, ⟨author.type, ada⟩, ⟨author.type, bea⟩]),
        [(Naming.writeMethod book.name, ⟨book.type, value⟩),
          (Naming.putMethod author.name, ⟨author.type, ada⟩),
          (Naming.putMethod author.name, ⟨author.type, bea⟩),
          (Naming.putMethod author.name, ⟨author.type, ada⟩)]) := by
  intro host ada bea value
  have typed : Typed schema (.entity book.type) value := by
    refine typed_book 1 (typed_author 7 "ada") (by simp [Value.Ascending]) fun role among => ?_
    obtain rfl := List.mem_singleton.mp among
    intro other contained
    rcases List.mem_pair.mp contained with rfl | rfl <;> exact typed_author ..
  have member : book ∈ (Resolution.ofSpecs specs).entities := List.get_mem _ _
  have run := Generated.Put.run_put member (by decide) typed ⟨false, []⟩ Storage.noting (pure 0)
    fun _ => Iteration.sorted
  exact (congrArg (fun program => program.run []) run).trans rfl

end EntityGen
