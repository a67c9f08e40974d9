import EntityGen.Semantics.Extraction
import EntityGen.Semantics.Reading

/-! What the expressions of a generated method stand for while it runs, and the variables of the
method. A reference is not told apart from what it refers to, unless something is changed through
it. -/
namespace EntityGen

/-- The order in which the hash maps of a property are iterated. -/
def Iteration.property (iteration : Iteration) : Nat → Iteration
  | 0 => iteration.within 0
  | i + 1 => (iteration.within 1).property i

/-- A value of a type in its place, and so with an order in which its hash maps are iterated. -/
structure Datum where
  type : ResolvedType
  value : Value
  iteration : Iteration

inductive Operand where
  /-- The repository that a method belongs to. -/
  | repository
  | datum (datum : Datum)
  /-- A value of its own, not yet put anywhere. -/
  | owned (type : ResolvedType) (value : Value)
  | shared (type : EntityType) (cell : Cell)
  /-- An entry of a map that is iterated. -/
  | entry (key value : Datum)
  | sequence (items : List Operand)
  | absent
  | present (content : Operand)
  | flag (raised : Bool)
  /-- A reference to an entity, as it stands in a dirty set. -/
  | mention (entity : EntityValue)
  | dirtySet (set : DirtySet)
  /-- A list that is being built, by its elements so far. -/
  | newList (kind : ListKind) (items : List Operand)
  /-- A map that is being built, by the keys and values that were inserted so far. -/
  | newMap (kind : MapKind) (keys values : List Operand)
  /-- A writable reference to a variable. -/
  | writable (name : String)
  /-- A store in memory, by its number. -/
  | store (number : Nat)
  /-- The field of a store that holds the entities of a type. -/
  | table (store : Nat) (type : EntityType)
  /-- A struct with two lists of stores: a repository, or its builder. -/
  | lists (stores : Repository)
  | nothing

namespace Value

def key : Value → Value
  | pair key _ => key
  | other => other

def content : Value → Value
  | pair _ value => value
  | other => other

end Value

namespace Datum

def elements : Datum → List Datum
  | ⟨.list _ elem, .seq items, iteration⟩ =>
    items.mapIdx fun i item => ⟨elem, item, iteration.within i⟩
  | _ => []

/-- The entries of a map, in the order in which it is iterated. -/
def entries : Datum → List (Datum × Datum)
  | ⟨.map kind keyType valueType, .seq entries, iteration⟩ =>
    iteration.arrange kind entries (entries.mapIdx fun i entry =>
      (⟨keyType, entry.key, iteration.within (2 * i)⟩,
        ⟨valueType, entry.content, iteration.within (2 * i + 1)⟩))
  | _ => []

/-- What the methods of containers iterate over. -/
def iterate? (datum : Datum) (method : String) : Option (List Operand) :=
  match datum.type, method with
  | .list _ _, "iter" => some (datum.elements.map .datum)
  | .map _ _ _, "iter" => some (datum.entries.map fun entry => .entry entry.1 entry.2)
  | .map _ _ _, "keys" => some (datum.entries.map fun entry => .datum entry.1)
  | .map _ _ _, "values" => some (datum.entries.map fun entry => .datum entry.2)
  | _, _ => none

end Datum

namespace Operand

def newContainer : Container → Operand
  | .list kind => newList kind []
  | .map kind => newMap kind [] []

/-- The value that is given where one of a type is expected. A container has to be of the kind that
is expected; a map is what its entries make it, inserted one after the other. -/
def valueAs? (operand : Operand) (type : ResolvedType) : Option Value :=
  match operand, type with
  | owned _ value, _ => some value
  | newList kind items, .list expected elem =>
    if kind = expected then (valuesAs? items elem).map .seq else none
  | newMap kind keys values, .map expected keyType valueType =>
    if kind = expected then do
      let newKeys ← valuesAs? keys keyType
      let newValues ← valuesAs? values valueType
      return .seq (Reading.grow (List.zipWith .pair newKeys newValues))
    else none
  | _, _ => none
where
  valuesAs? (operands : List Operand) (type : ResolvedType) : Option (List Value) :=
    match operands with
    | [] => some []
    | first :: rest => do
      let value ← first.valueAs? type
      let values ← valuesAs? rest type
      return value :: values

end Operand

end EntityGen
