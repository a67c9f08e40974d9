import EntityGen.Grammar.Ty

/-! The standard containers whose contents are walked. A path names one by its last segment, if it
has no other and no double colon in front, or if it begins at one of the standard libraries. -/
namespace EntityGen

inductive ListKind where
  | vec
  | vecDeque
  | linkedList
  deriving DecidableEq, Repr

inductive MapKind where
  | hashMap
  | btreeMap
  deriving DecidableEq, Repr

inductive Container where
  | list (kind : ListKind)
  | map (kind : MapKind)
  deriving DecidableEq, Repr

namespace Container

def all : List Container :=
  [.list .vec, .list .vecDeque, .list .linkedList, .map .hashMap, .map .btreeMap]

def name : Container → String
  | list .vec => "Vec"
  | list .vecDeque => "VecDeque"
  | list .linkedList => "LinkedList"
  | map .hashMap => "HashMap"
  | map .btreeMap => "BTreeMap"

def home : Container → String
  | list .vec => "vec"
  | _ => "collections"

def qualified (container : Container) : Code :=
  Code.rooted ["std", container.home, container.name]

def insertMethod : Container → String
  | list .vec => "push"
  | list _ => "push_back"
  | map _ => "insert"

def roots : List String := ["std", "alloc", "core"]

def ofPath? (path : Path) : Option Container := do
  let last ← path.segments.getLast?
  let container ← all.find? fun container => last.name == ⟨container.name, false⟩
  let rooted : Bool := match path.segments with
    | first :: _ :: _ => roots.any fun root => first.name == ⟨root, false⟩
    | _ => !path.leading
  if rooted then some container else none

end Container
end EntityGen
