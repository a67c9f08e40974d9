import EntityGen.Proofs.Entity.Sound
import EntityGen.Proofs.Execution.Entities

/-! What a repository finds when its methods call something: functions by their paths, and the
methods of entity types as they are declared. -/
namespace EntityGen

namespace Entity

variable {entity : Entity} {runtime : Path} {i : Nat}

theorem method?_getter (distinct : entity.Distinct) (bound : i < entity.properties.length) :
    (entity.typeDecl runtime).method? entity.properties[i].name.name =
      some (getter entity.properties[i]) := by
  have noConstructor : entity.properties[i].name.name ≠ "new" := fun same =>
    (List.nodup_cons.mp distinct).1 (List.mem_map.mpr ⟨_, List.getElem_mem bound, same⟩)
  have found := find?_of_nodup_keys distinct.nodup (List.getElem_mem bound)
  have notFirst : (entity.constructor.name.name == entity.properties[i].name.name) = false :=
    beq_eq_false_iff_ne.mpr noConstructor.symm
  have isFirst : (fun method : Method => method.name.name == entity.properties[i].name.name) ∘
      getter = fun property => property.name.name == entity.properties[i].name.name := rfl
  rw [TypeDecl.method?, typeDecl, List.find?_cons, notFirst, List.find?_map, isFirst, found]
  rfl

theorem method?_constructor : (entity.typeDecl runtime).method? "new" = some entity.constructor :=
  rfl

theorem traitMethod?_id :
    (entity.typeDecl runtime).traitMethod? runtime.entityTrait "id" = some entity.idMethod := by
  simp [TypeDecl.traitMethod?, typeDecl, idMethod, Naming.plain]

end Entity

namespace Host

variable {σ : Type} {host : Host σ} {type : EntityType} {entity : Entity} {fields : List Value}

@[simp] theorem call_machine : host.machine.call = host.call := rfl

@[simp] theorem change?_machine : host.machine.change? = host.change? := rfl

@[simp] theorem invoke_machine : host.machine.invoke = host.invoke := rfl

theorem find?_schema (found : host.entity? type = some entity) :
    host.schema.find? type = some entity.schema := by
  have isType : (fun schema : EntitySchema => schema.type == type) ∘ Entity.schema =
      fun entity => entity.type == type := rfl
  unfold entity? at found
  rw [schema, Schema.find?, List.find?_map, isType, found]
  rfl

theorem properties_schema (found : host.entity? type = some entity) :
    host.schema.properties type = entity.properties.map Property.resolved :=
  Schema.properties_of_find? (find?_schema found)

/-- An entity has one field for each property. -/
theorem fields_of_typed (found : host.entity? type = some entity)
    (typed : Typed host.schema (.entity type) value) :
    ∃ fields, value = .seq fields ∧ fields.length = entity.properties.length := by
  cases typed with
  | entity _ lengths _ =>
    exact ⟨_, rfl, by rwa [properties_schema found, List.length_map] at lengths⟩

theorem entity?_of_known (known : host.schema.Known type) :
    ∃ entity ∈ host.types, host.entity? type = some entity := by
  obtain ⟨schema, inside, isType⟩ := List.mem_map.mp (Schema.known_iff.mp known)
  obtain ⟨entity, member, rfl⟩ := List.mem_map.mp inside
  have isSome : (host.entity? type).isSome :=
    List.find?_isSome.mpr ⟨entity, member, beq_iff_eq.mpr isType⟩
  obtain ⟨entity, found⟩ := Option.isSome_iff_exists.mp isSome
  exact ⟨entity, List.mem_of_find?_eq_some found, found⟩

/-- In a round each entity is found by its type. -/
theorem entity?_of_mem (resolved : host.types = (Resolution.ofSpecs specs).entities)
    (member : entity ∈ (Resolution.ofSpecs specs).entities) :
    host.entity? entity.type = some entity := by
  rw [entity?, resolved]
  exact find?_of_nodup_keys (Resolution.nodup_types specs) member

theorem callDeclared_eq (method? : TypeDecl → Option Method) {self : Option Operand}
    {args : List Operand} {result : Operand} (found : host.entity? type = some entity)
    (declared : method? (entity.typeDecl host.runtime) = some method)
    (runs : method.run (entity.machine σ) self args = pure (some result)) :
    host.callDeclared type method? self args = pure result := by
  simp [callDeclared, found, declared, runs, Run.orStuck, Run.effect]

/-- A getter that is called on a shared entity. -/
theorem call_getter {i : Nat} {tag : Nat} (found : host.entity? type = some entity)
    (distinct : entity.Distinct) (bound : i < entity.properties.length)
    (inside : i < fields.length) :
    host.call (.shared type ⟨tag, .seq fields⟩) (Naming.getter entity.properties[i].name) [] =
      pure (.datum ⟨entity.properties[i].resolved, fields[i], (host.iteration tag).property i⟩) :=
  callDeclared_eq (fun decl => decl.method? entity.properties[i].name.name) found
    (Entity.method?_getter distinct bound)
    (Entity.run_getter distinct bound inside (.entity type) (host.iteration tag))

/-- A property of a shared entity that a variable stands for. -/
theorem eval_getter {env : Env} {x : Ident} {i : Nat} {tag : Nat}
    (shared : env.find? x.name = some (.shared type ⟨tag, .seq fields⟩))
    (found : host.entity? type = some entity) (distinct : entity.Distinct)
    (bound : i < entity.properties.length) (inside : i < fields.length) :
    (((Expr.name x).call (Naming.getter entity.properties[i].name) []).eval host.machine).run env =
      pure (.datum ⟨entity.properties[i].resolved, fields[i], (host.iteration tag).property i⟩,
        env) := by
  simp [Expr.eval, Expr.evalAll, Run.run_read shared, change?,
    call_getter found distinct bound inside]

section Functions

variable {function : Function} {args : List Operand}

theorem invoke_code (member : function ∈ Function.all host.types) :
    host.invoke (function.code host.runtime) args = host.apply function args := by
  rw [invoke, Function.named?_code member]

theorem invoke_library (function : Function) (library : function ∈ Function.all []) :
    host.invoke (function.code host.runtime) args = host.apply function args :=
  invoke_code (Function.mem_all_of_library library)

@[simp] theorem invoke_clone (datum : Datum) :
    host.invoke Code.clone [.datum datum] = pure (.owned datum.type datum.value) :=
  invoke_library .clone (by decide)

@[simp] theorem invoke_newShared (value : Value) :
    host.invoke Code.newShared [.owned (.entity type) value] = (do
      return .shared type ⟨← Run.effect host.allocate, value⟩) :=
  invoke_library .newShared (by decide)

@[simp] theorem invoke_cloneShared (cell : Cell) :
    host.invoke Code.cloneShared [.shared type cell] = pure (.shared type cell) :=
  invoke_library .cloneShared (by decide)

@[simp] theorem invoke_present (content : Operand) :
    host.invoke Code.present [content] = pure (.present content) :=
  invoke_library .present (by decide)

@[simp] theorem invoke_newDirtySet :
    host.invoke (Code.hashSet.step ⟨"new", false⟩) [] = pure (.dirtySet []) :=
  invoke_library .newDirtySet (by decide)

@[simp] theorem invoke_mention (cell : Cell) :
    host.invoke (Code.step [.word Naming.entityRef] ⟨"from", false⟩) [.shared type cell] =
      pure (.mention ⟨type, cell.value⟩) :=
  invoke_library .mention (by decide)

@[simp] theorem invoke_newContainer (container : Container) :
    host.invoke (container.qualified.step ⟨"new", false⟩) [] =
      pure (.newContainer container) :=
  invoke_library (.newContainer container) (by
    rcases container with (_ | _ | _) | (_ | _) <;> decide)

@[simp] theorem invoke_reconcile_absent (cached : Datum) (flag : String) :
    host.invoke host.runtime.reconcile [.datum cached, .absent, .writable flag] =
      reconciled cached none flag :=
  invoke_library .reconcile (by decide)

@[simp] theorem invoke_reconcile_present (cached : Datum) (latest : Cell) (flag : String) :
    host.invoke host.runtime.reconcile
        [.datum cached, .present (.shared type latest), .writable flag] =
      reconciled cached (some latest.value) flag :=
  invoke_library .reconcile (by decide)

/-- The id of an entity, as its trait gives it. -/
theorem invoke_id (found : host.entity? type = some entity) (distinct : entity.Distinct)
    (lengths : fields.length = entity.properties.length) (iteration : Iteration) :
    host.invoke host.runtime.idFunction [.datum ⟨.entity type, .seq fields, iteration⟩] =
      pure (.owned entity.idProperty.resolved (host.schema.idOf ⟨type, .seq fields⟩)) := by
  have bound : entity.spec.id.val < fields.length := lengths ▸ entity.id_lt
  have value : host.schema.idOf ⟨type, .seq fields⟩ = fields[entity.spec.id.val] := by
    rw [Schema.idOf, find?_schema found]
    simp [Entity.schema, bound]
  rw [value]
  exact (invoke_library .id (by decide)).trans <|
    callDeclared_eq (fun decl => decl.traitMethod? host.runtime.entityTrait "id") found
      Entity.traitMethod?_id (Entity.run_idMethod distinct entity.id_lt bound (.entity type) iteration)

/-- The constructor of an entity type, called with one argument for each property. -/
theorem invoke_construct {parts : List (Operand × Value)}
    (found : host.entity? entity.type = some entity) (distinct : entity.Distinct)
    (given : Entity.Given entity.properties parts) :
    host.invoke (entity.type.fromStore.step ⟨"new", false⟩) (parts.map Prod.fst) =
      pure (.owned (.entity entity.type) (.seq (parts.map Prod.snd))) :=
  (invoke_code (Function.construct_mem_all (List.mem_of_find?_eq_some found))).trans
    (callDeclared_eq (fun decl => decl.method? "new") found Entity.method?_constructor
      (Entity.run_constructor distinct given))

theorem eval_cloned {source : Expr} {env : Env} {datum : Datum}
    (gives : (source.eval host.machine).run env = pure (.datum datum, env)) :
    (source.cloned.eval host.machine).run env = pure (.owned datum.type datum.value, env) := by
  simp [Expr.cloned, Expr.eval, Expr.evalAll, gives]

end Functions
end Host

/-! Books have a main author, and further authors by the number of their roles. -/
namespace Library

def named (name : String) (args : List Ty) : Ty :=
  .path false [.mk (Naming.plain name)
    (if args.isEmpty then .none else .angle false (args.map .ty) false)]

def number : Ty := named "u32" []

def field (name : String) (ty : Ty) : SpecField := ⟨Naming.plain name, ty, [], name == "id"⟩

def spec (name : String) (fields : List SpecField) (id : Fin fields.length) : Spec where
  module := []
  ident := Naming.plain name
  name
  typeName := Naming.plain name
  vis := []
  fields
  id
  derives := []
  attrs := []
  pos := .start

def specs : List Spec :=
  [spec "Author" [field "id" number, field "name" (named "String" [])] ⟨0, by decide⟩,
    spec "Book" [field "id" number, field "main" (named "Author" []),
      field "roles" (named "BTreeMap" [number, named "Vec" [named "Author" []]])] ⟨0, by decide⟩]

def schema : Schema := (Resolution.ofSpecs specs).schema

def author : Entity := (Resolution.ofSpecs specs).entities.get ⟨0, by decide⟩

def book : Entity := (Resolution.ofSpecs specs).entities.get ⟨1, by decide⟩

def authorValue (id : Int) (name : String) : Value := .seq [.int id, .text name]

def bookValue (id : Int) (main : Value) (roles : List (Value × List Value)) : Value :=
  .seq [.int id, main, .seq ((roles.map fun role => (role.1, .seq role.2)).map Value.entry)]

theorem typed_author (id : Int) (name : String) :
    Typed schema (.entity author.type) (authorValue id name) := by
  refine .entity (by decide) rfl fun property value member => ?_
  have cases : (property, value) ∈
      [(.leaf number, .int id), (.leaf (named "String" []), .text name)] := member
  simp only [List.mem_cons, List.not_mem_nil, or_false] at cases
  rcases cases with ⟨rfl, rfl⟩ | ⟨rfl, rfl⟩ <;> exact .leaf

theorem typed_book (id : Int) (typedMain : Typed schema (.entity author.type) main)
    (ascending : Value.Ascending (roles.map fun role => (role.1, .seq role.2)))
    (authors : ∀ role ∈ roles, ∀ other ∈ role.2, Typed schema (.entity author.type) other) :
    Typed schema (.entity book.type) (bookValue id main roles) := by
  refine .entity (by decide) rfl fun property value member => ?_
  have cases : (property, value) ∈ [(.leaf number, .int id), (.entity author.type, main),
      (.map .btreeMap (.leaf number) (.list .vec (.entity author.type)),
        .seq ((roles.map fun role => (role.1, .seq role.2)).map Value.entry))] := member
  simp only [List.mem_cons, List.not_mem_nil, or_false] at cases
  rcases cases with ⟨rfl, rfl⟩ | ⟨rfl, rfl⟩ | ⟨rfl, rfl⟩
  · exact .leaf
  · exact typedMain
  · refine .map ascending (fun _ _ => .leaf) fun pair inside => ?_
    obtain ⟨role, among, rfl⟩ := List.mem_map.mp inside
    exact .list fun other contained => authors role among other contained

end Library
end EntityGen
