import EntityGen.Semantics.Calls

/-! The functions that bodies of methods call by their paths. Different functions have different
paths, so that each path names the function that it was written for. -/
namespace EntityGen

namespace Code

theorem step_inj {a b : Code} {x y : Ident} : a.step x = b.step y ↔ a = b ∧ x = y := by
  simp only [step, List.append_assoc]
  constructor
  · intro same
    obtain ⟨first, last⟩ := List.append_inj' same rfl
    exact ⟨first, by simpa using last⟩
  · rintro ⟨rfl, rfl⟩; rfl

theorem foldl_step (code : Code) (names : List Ident) :
    names.foldl step code = code ++ names.flatMap fun name => sign [':', ':'] ++ [.word name] := by
  induction names generalizing code with
  | nil => simp
  | cons first rest ih => simp [ih, step]

theorem foldl_step_inj {code : Code} {a b : List Ident} :
    a.foldl step code = b.foldl step code ↔ a = b := by
  rw [foldl_step, foldl_step, List.append_cancel_left_eq]
  refine ⟨fun same => ?_, congrArg _⟩
  induction a generalizing b with
  | nil => cases b <;> simp [sign] at same ⊢
  | cons first rest ih =>
    cases b with
    | nil => simp [sign] at same
    | cons other more =>
      simp only [List.flatMap_cons, List.append_assoc, List.append_cancel_left_eq,
        List.singleton_append, List.cons.injEq, Token.word.injEq] at same
      rw [same.1, ih same.2]

theorem rooted_eq_foldl_step (names : List String) :
    rooted names = (names.map Naming.plain).foldl step [] := by
  rw [foldl_step, List.nil_append, List.flatMap_map]
  rfl

@[simp] theorem rooted_inj {a b : List String} : rooted a = rooted b ↔ a = b := by
  rw [rooted_eq_foldl_step, rooted_eq_foldl_step, foldl_step_inj]
  exact List.map_inj_right fun x y same => congrArg Ident.name same

end Code

namespace Container

theorem name_inj {a b : Container} : a.name = b.name ↔ a = b := by
  refine ⟨fun same => ?_, congrArg _⟩
  rcases a with (_ | _ | _) | (_ | _) <;> rcases b with (_ | _ | _) | (_ | _) <;>
    first | rfl | exact absurd same (by decide)

theorem name_ne (container : Container) : container.name ≠ "Rc" ∧ container.name ≠ "HashSet" := by
  rcases container with (_ | _ | _) | (_ | _) <;> decide

end Container

namespace EntityType

@[simp] theorem fromStore_inj {a b : EntityType} : a.fromStore = b.fromStore ↔ a = b := by
  obtain ⟨module, name⟩ := a
  obtain ⟨other, last⟩ := b
  rw [fromStore, fromStore, Code.foldl_step_inj, ← List.concat_eq_append, ← List.concat_eq_append,
    List.concat_inj, mk.injEq]

/-- A path from the roots of all libraries is none to an entity type. -/
@[simp] theorem rooted_ne_fromStore (first : String) (rest : List String) (type : EntityType) :
    Code.rooted (first :: rest) ≠ type.fromStore := by
  rw [fromStore, Code.foldl_step]
  simp [Code.rooted, Code.sign, Token.plain]

@[simp] theorem fromStore_ne_rooted (first : String) (rest : List String) (type : EntityType) :
    type.fromStore ≠ Code.rooted (first :: rest) := (rooted_ne_fromStore first rest type).symm

end EntityType

namespace Function

variable {runtime : Path} {types : List Entity} {f g : Function}

def scope (runtime : Path) : Function → Code
  | clone => Code.rooted ["std", "clone", "Clone"]
  | newShared | cloneShared => Code.rc
  | present => Code.option
  | newDirtySet => Code.hashSet
  | mention => [.word Naming.entityRef]
  | id => runtime.entityTrait
  | reconcile => runtime.code
  | newContainer container => container.qualified
  | construct type => type.fromStore

def name : Function → String
  | clone | cloneShared => "clone"
  | newShared | newDirtySet | newContainer _ | construct _ => "new"
  | present => "Some"
  | mention => "from"
  | id => "id"
  | reconcile => "reconcile"

theorem code_eq (runtime : Path) (f : Function) :
    f.code runtime = (f.scope runtime).step ⟨f.name, false⟩ := by
  cases f <;> rfl

/-- Functions of one name stand in different places. -/
theorem code_inj : f.code runtime = g.code runtime ↔ f = g := by
  refine ⟨fun same => ?_, congrArg _⟩
  rw [code_eq, code_eq, Code.step_inj] at same
  obtain ⟨scopes, names⟩ := same
  cases f <;> cases g <;> simp [name] at names <;>
    simp [scope, Code.rc, Code.hashSet, Container.qualified, Container.name_ne,
      (Container.name_ne _).1.symm, (Container.name_ne _).2.symm, Container.name_inj] at scopes ⊢
  case newContainer.newContainer => exact scopes.2
  case construct.construct => exact scopes

theorem named?_code (member : f ∈ all types) : named? runtime types (f.code runtime) = some f := by
  unfold named?
  have isSome : ((all types).find? fun g => g.code runtime == f.code runtime).isSome :=
    List.find?_isSome.mpr ⟨f, member, beq_self_eq_true _⟩
  obtain ⟨g, found⟩ := Option.isSome_iff_exists.mp isSome
  have same := List.find?_some found
  rw [found, code_inj.mp (beq_iff_eq.mp same)]

/-- The functions that stand for no type of entity are always there. -/
theorem mem_all_of_library (member : f ∈ all []) : f ∈ all types := by
  simp only [all, List.map_nil, List.append_nil] at member
  exact List.mem_append_left _ member

theorem construct_mem_all (member : entity ∈ types) : construct entity.type ∈ all types :=
  List.mem_append_right _ (List.mem_map_of_mem member)

end Function
end EntityGen
