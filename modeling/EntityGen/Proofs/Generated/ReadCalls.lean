import EntityGen.Proofs.Execution.Agreement
import EntityGen.Proofs.Execution.Getting
import EntityGen.Proofs.Generated.Bodies

/-! What the methods that read an entity call. Only for a property that holds an entity directly is
a method called that reads one in the same way, and never in a loop. What stands in a container is
taken from the stores, by methods that call nothing on the repository. -/
namespace EntityGen

/-- If a part of a body is a loop, whatever is called in its body is one of these. -/
def Node.LoopsOnly (calls : Calls) : Node → Prop
  | .stmt (.each _ _ body) => Body.All (Node.CallsOnly calls) body
  | .expr _ | .stmt _ => True

namespace Generated.Get

/-- A call in a loop. On the repository, an entity in a container is looked up. -/
inductive LoopCall (properties : List Property) : Expr → Ident → List Expr → Prop
  | read {property : Property} (member : property ∈ properties)
      (container : ∀ target, property.resolved ≠ .entity target)
      {target : EntityType} (inside : target ∈ property.resolved.targets) (id : Expr) :
      LoopCall properties Expr.self (Naming.readMethod target.name) [id]
  | iterate {source : Expr} (other : source ≠ Expr.self) :
      LoopCall properties source ⟨"iter", false⟩ []
  | insert (copy : Ident) (container : Container) (values : List Expr) :
      LoopCall properties (.name copy) (Naming.plain container.insertMethod) values

inductive Call (entity : Entity) : Expr → Ident → List Expr → Prop
  | loop {receiver : Expr} {method : Ident} {args : List Expr}
      (call : LoopCall entity.properties receiver method args) : Call entity receiver method args
  | own (id : Expr) : Call entity Expr.self (Naming.readMethod entity.name) [id]
  | direct {property : Property} (member : property ∈ entity.properties) {target : EntityType}
      (isEntity : property.resolved = .entity target) (id : Expr) :
      Call entity Expr.self (Naming.getMethod target.name) [id]
  | getter (x : Ident) : Call entity (.name cachedVar) x []

end Generated.Get

open Generated.Get (LoopCall Call)

/-- A part of a body calls nothing but these, and nothing in a loop but what is called there. -/
def Node.Fetches (properties : List Property) (calls : Calls) (node : Node) : Prop :=
  node.CallsOnly calls ∧ node.LoopsOnly (LoopCall properties)

def Expr.Fetches (properties : List Property) (calls : Calls) (expr : Expr) : Prop :=
  expr.All (Node.Fetches properties calls)

def Stmt.Fetches (properties : List Property) (calls : Calls) (stmt : Stmt) : Prop :=
  stmt.All (Node.Fetches properties calls)

def Body.Fetches (properties : List Property) (calls : Calls) (body : List Stmt) : Prop :=
  Body.All (Node.Fetches properties calls) body

section Fetches

variable {properties : List Property} {calls : Calls} {code function : Code} {x method : Ident}
  {writable : Bool} {receiver operand value source : Expr} {args : List Expr} {type : Option Code}
  {binding : Binding} {stmt : Stmt} {body rest : List Stmt}

@[simp] theorem Expr.fetches_literal : (literal code).Fetches properties calls :=
  all_literal.mpr ⟨trivial, trivial⟩

@[simp] theorem Expr.fetches_name : (name x).Fetches properties calls :=
  all_name.mpr ⟨trivial, trivial⟩

@[simp] theorem Expr.fetches_self : self.Fetches properties calls := fetches_literal

@[simp] theorem Expr.fetches_call : (call receiver method args).Fetches properties calls ↔
    calls receiver method args ∧ receiver.Fetches properties calls ∧
      ∀ arg ∈ args, arg.Fetches properties calls :=
  all_call.trans (and_congr_left' (and_iff_left trivial))

@[simp] theorem Expr.fetches_invoke : (invoke function args).Fetches properties calls ↔
    ∀ arg ∈ args, arg.Fetches properties calls :=
  all_invoke.trans (and_iff_right ⟨trivial, trivial⟩)

@[simp] theorem Expr.fetches_ref :
    (ref writable operand).Fetches properties calls ↔ operand.Fetches properties calls :=
  all_ref.trans (and_iff_right ⟨trivial, trivial⟩)

@[simp] theorem Expr.fetches_not :
    operand.not.Fetches properties calls ↔ operand.Fetches properties calls :=
  all_not.trans (and_iff_right ⟨trivial, trivial⟩)

@[simp] theorem Expr.fetches_attempt :
    operand.attempt.Fetches properties calls ↔ operand.Fetches properties calls :=
  all_attempt.trans (and_iff_right ⟨trivial, trivial⟩)

@[simp] theorem Stmt.fetches_decl : (decl writable x type (some value)).Fetches properties calls ↔
    value.Fetches properties calls :=
  all_decl.trans (and_iff_right ⟨trivial, trivial⟩)

@[simp] theorem Stmt.fetches_expr :
    (Stmt.expr value).Fetches properties calls ↔ value.Fetches properties calls :=
  all_expr.trans (and_iff_right ⟨trivial, trivial⟩)

@[simp] theorem Stmt.fetches_ret :
    (ret value).Fetches properties calls ↔ value.Fetches properties calls :=
  all_ret.trans (and_iff_right ⟨trivial, trivial⟩)

@[simp] theorem Stmt.fetches_branch : (branch (.holds value) body none).Fetches properties calls ↔
    value.Fetches properties calls ∧ Body.Fetches properties calls body :=
  all_branch_none.trans (and_iff_right ⟨trivial, trivial⟩)

@[simp] theorem Body.fetches_nil : Fetches properties calls [] := all_nil

@[simp] theorem Body.fetches_cons : Fetches properties calls (stmt :: rest) ↔
    stmt.Fetches properties calls ∧ Fetches properties calls rest :=
  all_cons

@[simp] theorem Body.fetches_append : Fetches properties calls (body ++ rest) ↔
    Fetches properties calls body ∧ Fetches properties calls rest :=
  all_append

/-- Whatever the body of a loop calls is also called in the body around it. -/
theorem Stmt.fetches_each (larger : ∀ receiver method args,
      LoopCall properties receiver method args → calls receiver method args)
    (outside : source.Fetches properties calls)
    (inside : Body.Fetches properties (LoopCall properties) body) :
    (each binding source body).Fetches properties calls :=
  all_each.mpr ⟨⟨trivial, fun node member => (inside node member).1⟩, outside,
    fun node member => ⟨(inside node member).1.mono larger, (inside node member).2⟩⟩

end Fetches

namespace Generated.Get

variable {properties : List Property} {calls : Calls} {runtime : Path} {source : Expr}

/-- The entities of a type that stands in a container can be looked up. -/
def Reads (properties : List Property) (type : ResolvedType) : Prop :=
  ∀ target ∈ type.targets, ∀ id,
    LoopCall properties Expr.self (Naming.readMethod target.name) [id]

theorem fetches_element (runtime : Path) (type : ResolvedType) (source : Expr)
    {inner : Expr → Ident → Counters → Body × Counters}
    (reads : Reads properties type) (sourceFetches : source.Fetches properties (LoopCall properties))
    (rebuilt : ∀ copy counters,
      Body.Fetches properties (LoopCall properties) (inner source copy counters).1)
    (counters : Counters) :
    let made := element runtime inner type source counters
    Body.Fetches properties (LoopCall properties) made.1 ∧
      made.2.1.Fetches properties (LoopCall properties) := by
  intro made
  by_cases direct : ∃ target, type = .entity target
  · obtain ⟨target, rfl⟩ := direct
    have read := reads target List.mem_cons_self
    simp [made, element, reconciled, idOf, Expr.borrow, read, sourceFetches]
  · simp only [made, element_of_container fun target same => direct ⟨target, same⟩]
    split
    · exact ⟨rebuilt _ _, Expr.fetches_name⟩
    · simp [Expr.cloned, sourceFetches]

theorem fetches_rebuild (runtime : Path) : (type : ResolvedType) → Reads properties type →
    {calls : Calls} →
    (∀ receiver method args,
      LoopCall properties receiver method args → calls receiver method args) → {source : Expr} →
    source ≠ Expr.self → source.Fetches properties calls → (copy : Ident) →
    (counters : Counters) →
    Body.Fetches properties calls (rebuild runtime type source copy counters).1
  | .list kind elem, reads, calls, larger, source, other, sourceFetches, copy, counters => by
    have inner := fetches_element runtime elem (.name (Naming.itemVar counters.loops)) reads
      Expr.fetches_name (fetches_rebuild runtime elem reads (fun _ _ _ => id) (by simp [Expr.self])
        Expr.fetches_name)
      { counters with loops := counters.loops + 1 }
    have grown : ∀ values, LoopCall properties (.name copy) _ values := .insert copy (.list kind)
    have iterated := larger _ _ _ (.iterate other)
    rw [rebuild]
    refine Body.fetches_cons.mpr ⟨by simp [freshCopy], Body.fetches_cons.mpr ⟨?_, Body.fetches_nil⟩⟩
    refine Stmt.fetches_each larger (by simp [Expr.get, iterated, sourceFetches]) ?_
    simp [grow, inner, grown]
  | .map kind key value, reads, calls, larger, source, other, sourceFetches, copy, counters => by
    obtain ⟨keyReads, valueReads⟩ := List.forall_mem_append.mp reads
    have keys := fetches_element runtime key (.name (Naming.keyVar counters.loops)) keyReads
      Expr.fetches_name (fetches_rebuild runtime key keyReads (fun _ _ _ => id) (by simp [Expr.self])
        Expr.fetches_name)
      { counters with loops := counters.loops + 1 }
    have values := fetches_element runtime value (.name (Naming.valueVar counters.loops)) valueReads
      Expr.fetches_name (fetches_rebuild runtime value valueReads (fun _ _ _ => id) (by simp [Expr.self])
        Expr.fetches_name)
    have grown : ∀ values, LoopCall properties (.name copy) _ values := .insert copy (.map kind)
    have iterated := larger _ _ _ (.iterate other)
    rw [rebuild]
    refine Body.fetches_cons.mpr ⟨by simp [freshCopy], Body.fetches_cons.mpr ⟨?_, Body.fetches_nil⟩⟩
    refine Stmt.fetches_each larger (by simp [Expr.get, iterated, sourceFetches]) ?_
    simp [grow, keys, values, grown]
  | .leaf _, _, _, _, _, _, _, _, _ | .entity _, _, _, _, _, _, _, _, _
  | .other _ _, _, _, _, _, _, _, _, _ => Body.fetches_nil

theorem fetches_property (runtime : Path) {entity : Entity} {property : Property}
    (member : property ∈ entity.properties) (counters : Counters) :
    let made := Get.property runtime property counters
    Body.Fetches entity.properties (Call entity) made.1 ∧
      made.2.1.Fetches entity.properties (Call entity) := by
  intro made
  have cached : ((Expr.name cachedVar).call (Naming.getter property.name) []).Fetches
      entity.properties (Call entity) := by
    simp [Call.getter]
  by_cases direct : ∃ target, property.resolved = .entity target
  · obtain ⟨target, isEntity⟩ := direct
    have fetched := Call.direct member isEntity
    simp only [made, Get.property, isEntity]
    simp [reconciled, idOf, Expr.borrow, fetched, cached]
  · have container : ∀ target, property.resolved ≠ .entity target := fun target same =>
      direct ⟨target, same⟩
    simp only [made, property_of_container container]
    split
    · have reads : Reads entity.properties property.resolved := fun _ => .read member container
      have rebuilt := fetches_rebuild runtime property.resolved reads
        (fun _ _ _ => Call.loop) Expr.call_ne_self cached
      exact ⟨rebuilt _ _, Expr.fetches_name⟩
    · simp [Expr.cloned, cached]

theorem fetches_properties (runtime : Path) {entity : Entity} {properties : List Property}
    (inside : ∀ property ∈ properties, property ∈ entity.properties) (counters : Counters) :
    let made := Get.properties runtime properties counters
    Body.Fetches entity.properties (Call entity) made.1 ∧
      ∀ value ∈ made.2, value.Fetches entity.properties (Call entity) := by
  induction properties generalizing counters with
  | nil => exact ⟨Body.fetches_nil, nofun⟩
  | cons property rest ih =>
    obtain ⟨member, inside⟩ := List.forall_mem_cons.mp inside
    obtain ⟨body, value⟩ := fetches_property runtime member counters
    obtain ⟨bodies, values⟩ := ih inside (Get.property runtime property counters).2.2
    exact ⟨Body.fetches_append.mpr ⟨body, bodies⟩, List.forall_mem_cons.mpr ⟨value, values⟩⟩

theorem fetches_body (runtime : Path) (entity : Entity) :
    Body.Fetches entity.properties (Call entity) (body runtime entity) := by
  have read : (Get.read entity).Fetches entity.properties (Call entity) := by
    simp [Get.read, Call.own]
  unfold body
  split
  · obtain ⟨bodies, values⟩ := fetches_properties runtime
      (fun _ member => member : ∀ property ∈ entity.properties, _) {}
    simpa [rebuilding, bodies, read] using values
  · simp [read]

/-- A method that looks an entity up in the stores calls nothing on the repository itself. -/
theorem calls_read (runtime : Path) (entity : Entity) :
    ∀ body ∈ (Repository.read runtime entity).body,
      Body.All (Node.CallsOnly fun receiver _ _ => receiver ≠ Expr.self) body := by
  rintro _ ⟨⟩
  simp [Node.CallsOnly, Expr.get, Expr.self]

end Generated.Get
end EntityGen
