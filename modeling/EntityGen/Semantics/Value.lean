/-! Values that entities hold. A list is the sequence of its elements, a tuple or an entity that of
its fields, and a map that of its entries, which are pairs in the order of their keys. So two
values are the same if and only if they are equal, and `Value.compare` is a total order on them
(`Value.compare_eq_iff` says that it tells all values apart). -/
namespace EntityGen

inductive Value where
  | null
  | bool (b : Bool)
  | int (n : Int)
  | text (s : String)
  /-- An entry of a map. -/
  | pair (key value : Value)
  | seq (items : List Value)
  deriving Repr, Inhabited

namespace Value

def rank : Value → Nat
  | null => 0
  | bool _ => 1
  | int _ => 2
  | text _ => 3
  | pair _ _ => 4
  | seq _ => 5

/-- The order of two values of a type whose equality can be decided. -/
def order [LT α] [DecidableEq α] [DecidableLT α] (a b : α) : Ordering :=
  if a = b then .eq else if a < b then .lt else .gt

mutual

/-- Pairs and sequences are compared part by part; the shorter of two sequences comes first if it
begins the longer one. -/
def compare : Value → Value → Ordering
  | bool a, bool b => order a b
  | int a, int b => order a b
  | text a, text b => order a b
  | pair a b, pair c d => (compare a c).then (compare b d)
  | seq a, seq b => compareAll a b
  | a, b => order a.rank b.rank

def compareAll : List Value → List Value → Ordering
  | [], [] => .eq
  | [], _ :: _ => .lt
  | _ :: _, [] => .gt
  | a :: as, b :: bs => (compare a b).then (compareAll as bs)

end

theorem order_eq_iff [LT α] [DecidableEq α] [DecidableLT α] {a b : α} :
    order a b = .eq ↔ a = b := by
  unfold order
  split
  · simp [*]
  · split <;> simp [*]

mutual

theorem compare_eq_iff : (a b : Value) → (compare a b = .eq ↔ a = b)
  | null, b => by cases b <;> simp [compare, order_eq_iff, rank]
  | bool a, b => by cases b <;> simp [compare, order_eq_iff, rank]
  | int a, b => by cases b <;> simp [compare, order_eq_iff, rank]
  | text a, b => by cases b <;> simp [compare, order_eq_iff, rank]
  | pair a b, c => by
    cases c <;> simp [compare, order_eq_iff, rank, Ordering.then_eq_eq, compare_eq_iff a,
      compare_eq_iff b]
  | seq a, b => by cases b <;> simp [compare, order_eq_iff, rank, compareAll_eq_iff a]

theorem compareAll_eq_iff : (a b : List Value) → (compareAll a b = .eq ↔ a = b)
  | [], b => by cases b <;> simp [compareAll]
  | a :: as, b => by
    cases b <;> simp [compareAll, Ordering.then_eq_eq, compare_eq_iff a, compareAll_eq_iff as]

end

instance : DecidableEq Value := fun a b => decidable_of_iff _ (compare_eq_iff a b)

/-- Puts an entry among the entries of a map. An equal key keeps its place and takes the value. -/
def insertEntry (key value : Value) : List Value → List Value
  | [] => [pair key value]
  | pair other old :: rest =>
    match compare key other with
    | .lt => pair key value :: pair other old :: rest
    | .eq => pair other value :: rest
    | .gt => pair other old :: insertEntry key value rest
  | entry :: rest => entry :: insertEntry key value rest

def mapOf (entries : List (Value × Value)) : Value :=
  seq (entries.foldl (fun map (key, value) => insertEntry key value map) [])

end Value
end EntityGen
