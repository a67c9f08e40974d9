import EntityGen.Generated.Put
import EntityGen.Proofs.Execution.Getting
import EntityGen.Proofs.Generated.Variables

/-! The methods that read and store an entity bind each name once, and use a name only where it is
bound. Numbered names are drawn from counters that only grow, so that no number is drawn twice of
one stem; no other name ends in a digit. -/
namespace EntityGen

open scoped List

namespace Naming

/-- What stands in front of the number of a numbered name. -/
def IsStem (stem : String) : Prop := (stem.toList.all fun c => !c.isDigit && c != '_') = true

instance (stem : String) : Decidable (IsStem stem) := inferInstanceAs (Decidable (_ = true))

/-- A numbered name tells its stem and its number. -/
theorem numbered_inj {stem other : String} {m n : Nat} (isStem : IsStem stem)
    (isOther : IsStem other) (same : stem ++ toString m = other ++ toString n) :
    stem = other ∧ m = n := by
  have stems : stem.toList = other.toList := by
    rw [← family_numbered stem isStem m, same, family_numbered other isOther n]
  obtain rfl := String.toList_inj.mp stems
  exact ⟨rfl, toString_nat_inj.mp ((String.append_right_inj stem).mp same)⟩

def endsInDigit (name : String) : Bool := name.toList.getLast?.any Char.isDigit

theorem endsInDigit_numbered (stem : String) (n : Nat) : endsInDigit (stem ++ toString n) = true := by
  have some : (toString n).toList ≠ [] := by
    rw [Nat.toString_eq_repr, Nat.toList_repr]
    exact Nat.toDigits_ne_nil
  rw [endsInDigit, String.toList_append, List.getLast?_append_of_ne_nil _ some,
    List.getLast?_eq_some_getLast some]
  exact isDigit_of_mem_toString (List.getLast_mem some)

/-- Names that are numbered, each once: a number is taken from where those of its stem were free
before, up to where they are free after. -/
structure Draws (used next : String → Nat) (names : List String) : Prop where
  up : ∀ stem, used stem ≤ next stem
  once : names.Nodup
  drawn : ∀ name ∈ names, ∃ stem n, IsStem stem ∧ used stem ≤ n ∧ n < next stem ∧
    name = stem ++ toString n

namespace Draws

variable {used mid next : String → Nat} {names others : List String} {stem : String}

theorem nil (up : ∀ stem, used stem ≤ next stem) : Draws used next [] := ⟨up, .nil, nofun⟩

/-- The next number of each of several stems. -/
theorem each (stems : List String) (once : stems.Nodup) (isStem : ∀ stem ∈ stems, IsStem stem)
    (up : ∀ stem, used stem ≤ next stem) (here : ∀ stem ∈ stems, used stem < next stem) :
    Draws used next (stems.map fun stem => stem ++ toString (used stem)) := by
  refine ⟨up, once.map_on fun stem member other inside same => ?_, ?_⟩
  · exact (numbered_inj (isStem stem member) (isStem other inside) same).1
  · intro name member
    obtain ⟨stem, inside, rfl⟩ := List.mem_map.mp member
    exact ⟨stem, used stem, isStem stem inside, Nat.le_refl _, here stem inside, rfl⟩

/-- What is drawn later is different, since its numbers are higher. -/
theorem append (first : Draws used mid names) (second : Draws mid next others) :
    Draws used next (names ++ others) := by
  refine ⟨fun stem => Nat.le_trans (first.up stem) (second.up stem), ?_, ?_⟩
  · refine List.nodup_append.mpr ⟨first.once, second.once, fun name early other late same => ?_⟩
    obtain ⟨stem, m, isStem, -, below, rfl⟩ := first.drawn name early
    obtain ⟨other, n, isOther, above, -, rfl⟩ := second.drawn other late
    obtain ⟨rfl, rfl⟩ := numbered_inj isStem isOther same
    exact Nat.lt_irrefl _ (Nat.lt_of_lt_of_le below above)
  · rw [List.forall_mem_append]
    constructor
    · intro name member
      obtain ⟨stem, n, isStem, above, below, same⟩ := first.drawn name member
      exact ⟨stem, n, isStem, above, Nat.lt_of_lt_of_le below (second.up stem), same⟩
    · intro name member
      obtain ⟨stem, n, isStem, above, below, same⟩ := second.drawn name member
      exact ⟨stem, n, isStem, Nat.le_trans (first.up stem) above, below, same⟩

theorem endsInDigit (draws : Draws used next names) (member : name ∈ names) :
    Naming.endsInDigit name = true := by
  obtain ⟨stem, n, -, -, -, rfl⟩ := draws.drawn name member
  exact endsInDigit_numbered stem n

end Draws
end Naming

open Naming (Draws)

namespace Generated.Get

variable {runtime : Path} {source : Expr} {names : List String}

def Counters.at (counters : Counters) (stem : String) : Nat :=
  if stem = "copy" then counters.copies else counters.loops

theorem flat_element {type : ResolvedType} {inner : Expr → Ident → Counters → Body × Counters}
    {counters : Counters} (flat : source.Flat) :
    (element runtime inner type source counters).2.1.Flat := by
  unfold element
  split
  · simp [reconciled, idOf, Expr.borrow, Expr.self, flat]
  · split
    · simp
    · simp [Expr.cloned, flat]

theorem at_le_of {first second : Counters} (loops : first.loops ≤ second.loops)
    (copies : first.copies ≤ second.copies) (stem : String) : first.at stem ≤ second.at stem := by
  unfold Counters.at
  split
  · exact copies
  · exact loops

theorem draws_copy (counters : Counters) :
    Draws counters.at ({ counters with copies := counters.copies + 1 } : Counters).at
      [(Naming.nestedCopy counters.copies).name] :=
  .each ["copy"] (by simp) (by decide) (at_le_of (Nat.le_refl _) (Nat.le_succ _))
    (List.forall_mem_singleton.mpr (Nat.lt_succ_self _))

/-- The variables of a loop. -/
theorem draws_loop (stems : List String) (once : stems.Nodup)
    (isLoop : ∀ stem ∈ stems, Naming.IsStem stem ∧ stem ≠ "copy") (counters : Counters) :
    Draws counters.at ({ counters with loops := counters.loops + 1 } : Counters).at
      (stems.map fun stem => stem ++ toString counters.loops) := by
  have isAt (counters : Counters) : ∀ stem ∈ stems, counters.at stem = counters.loops :=
    fun stem member => if_neg (isLoop stem member).2
  have names : stems.map (fun stem => stem ++ toString counters.loops) =
      stems.map fun stem => stem ++ toString (counters.at stem) :=
    List.map_congr_left fun stem member => by rw [isAt counters stem member]
  rw [names]
  refine .each stems once (fun stem member => (isLoop stem member).1)
    (at_le_of (Nat.le_succ _) (Nat.le_refl _)) fun stem member => ?_
  rw [isAt _ stem member, isAt _ stem member]
  exact Nat.lt_succ_self _

/-- Statements that rebuild a container declare the new variable, and else draw their names. -/
def Declares (copy : Ident) (counters : Counters) (made : Body × Counters) : Prop :=
  ∃ names, Body.bound made.1 = copy.name :: names ∧ Draws counters.at made.2.at names

theorem draws_element (runtime : Path) (source : Expr) {type : ResolvedType}
    {inner : Expr → Ident → Counters → Body × Counters}
    (declares : type.holdsEntities = true → (∀ target, type ≠ .entity target) →
      ∀ copy counters, Declares copy counters (inner source copy counters)) (counters : Counters) :
    let made := element runtime inner type source counters
    Draws counters.at made.2.2.at (Body.bound made.1) := by
  dsimp only
  by_cases direct : ∃ target, type = .entity target
  · obtain ⟨target, rfl⟩ := direct
    exact .nil fun _ => Nat.le_refl _
  · have container : ∀ target, type ≠ .entity target := fun target same => direct ⟨target, same⟩
    rw [element_of_container container]
    split
    next holds =>
      obtain ⟨names, bound, draws⟩ := declares holds container (Naming.nestedCopy counters.copies)
        { counters with copies := counters.copies + 1 }
      dsimp only
      rw [bound]
      exact (draws_copy counters).append draws
    next => exact .nil fun _ => Nat.le_refl _

theorem bound_freshCopy {copy : Ident} {container : Container} :
    (freshCopy copy container).bound = [copy.name] := rfl

theorem bound_grow {copy : Ident} {container : Container} {values : List Expr}
    (flat : ∀ value ∈ values, value.Flat) : (grow copy container values).bound = [] :=
  Expr.Flat.bound (by simpa using flat)

theorem draws_item (counters : Counters) :
    Draws counters.at ({ counters with loops := counters.loops + 1 } : Counters).at
      [(Naming.itemVar counters.loops).name] :=
  draws_loop ["item"] (by decide) (by decide) counters

theorem draws_entry (counters : Counters) :
    Draws counters.at ({ counters with loops := counters.loops + 1 } : Counters).at
      [(Naming.keyVar counters.loops).name, (Naming.valueVar counters.loops).name] :=
  draws_loop ["key", "value"] (by decide) (by decide) counters

theorem declares_rebuild (runtime : Path) : (type : ResolvedType) → type.holdsEntities = true →
    (∀ target, type ≠ .entity target) → {source : Expr} → source.Flat → (copy : Ident) →
    (counters : Counters) → Declares copy counters (rebuild runtime type source copy counters)
  | .list kind elem, _, _, source, flat, copy, counters => by
    have inner := draws_element runtime (.name (Naming.itemVar counters.loops))
      (fun holds container => declares_rebuild runtime elem holds container Expr.flat_name)
      { counters with loops := counters.loops + 1 }
    refine ⟨_, ?_, (draws_item counters).append inner⟩
    simp [rebuild, bound_freshCopy, bound_grow, Binding.names, Expr.get, flat, flat_element]
  | .map kind key value, _, _, source, flat, copy, counters => by
    have keys := draws_element runtime (.name (Naming.keyVar counters.loops))
      (fun holds container => declares_rebuild runtime key holds container Expr.flat_name)
      { counters with loops := counters.loops + 1 }
    have values := draws_element runtime (.name (Naming.valueVar counters.loops))
      (fun holds container => declares_rebuild runtime value holds container Expr.flat_name)
      (element runtime (rebuild runtime key) key (.name (Naming.keyVar counters.loops))
        { counters with loops := counters.loops + 1 }).2.2
    refine ⟨_, ?_, (draws_entry counters).append (keys.append values)⟩
    simp [rebuild, bound_freshCopy, bound_grow, Binding.names, Expr.get, flat, flat_element]
  | .entity target, _, container, _, _, _, _ => (container target rfl).elim

/-- What is bound for a property: at most one variable of its own, and numbered names. -/
theorem bound_property (runtime : Path) (property : Property) (counters : Counters) :
    let made := Get.property runtime property counters
    ∃ own names, Body.bound made.1 = own ++ names ∧ own.Nodup ∧
      (∀ name ∈ own, IsLocalOf property.name name) ∧ Draws counters.at made.2.2.at names := by
  intro made
  have cached : ((Expr.name cachedVar).call (Naming.getter property.name) []).Flat := by simp
  by_cases direct : ∃ target, property.resolved = .entity target
  · obtain ⟨target, isEntity⟩ := direct
    refine ⟨[(Naming.propertyLatest property.name).name], [], ?_, List.nodup_singleton _,
      List.forall_mem_singleton.mpr (.inl rfl), ?_⟩
    · simp [made, Get.property, isEntity, reconciled, idOf, Expr.borrow, Expr.self]
    · simpa [made, Get.property, isEntity] using Draws.nil fun _ => Nat.le_refl _
  · have container : ∀ target, property.resolved ≠ .entity target := fun target same =>
      direct ⟨target, same⟩
    simp only [made, property_of_container container]
    split
    next holds =>
      obtain ⟨names, bound, draws⟩ := declares_rebuild runtime property.resolved holds
        container cached (Naming.propertyCopy property.name) counters
      exact ⟨[_], names, bound, List.nodup_singleton _,
        List.forall_mem_singleton.mpr (.inr rfl), draws⟩
    next => exact ⟨[], [], rfl, .nil, List.forall_mem_nil _, .nil fun _ => Nat.le_refl _⟩

theorem IsLocalOf.endsInDigit {x : Ident} {name : String} (isLocal : IsLocalOf x name) :
    Naming.endsInDigit name = false := by
  rcases isLocal with rfl | rfl <;>
    simp [Naming.endsInDigit, Naming.propertyLatest, Naming.propertyCopy, Naming.plain]

/-- Properties of different names have different variables of their own. -/
theorem bound_properties (runtime : Path) {properties : List Property}
    (distinct : (properties.map fun property => property.name.name).Nodup) (counters : Counters) :
    ∃ own names next, Body.bound (Get.properties runtime properties counters).1 ~ own ++ names ∧
      own.Nodup ∧ (∀ name ∈ own, ∃ property ∈ properties, IsLocalOf property.name name) ∧
      Draws counters.at next names := by
  induction properties generalizing counters with
  | nil => exact ⟨[], [], counters.at, .nil, .nil, nofun, .nil fun _ => Nat.le_refl _⟩
  | cons property rest ih =>
    obtain ⟨absent, distinct⟩ := List.nodup_cons.mp distinct
    obtain ⟨own, names, bound, once, isLocal, draws⟩ :=
      bound_property runtime property counters
    obtain ⟨others, more, next, boundRest, onceRest, areLocal, drawsRest⟩ :=
      ih distinct (Get.property runtime property counters).2.2
    refine ⟨own ++ others, names ++ more, next, ?_, ?_, ?_, draws.append drawsRest⟩
    · rw [Get.properties, Body.bound_append, bound]
      calc own ++ names ++ Body.bound _
        _ ~ own ++ names ++ (others ++ more) := boundRest.append_left _
        _ ~ own ++ (others ++ (names ++ more)) := by
          rw [List.append_assoc]
          exact List.perm_append_comm_assoc names others more |>.append_left own
        _ = own ++ others ++ (names ++ more) := (List.append_assoc ..).symm
    · refine List.nodup_append.mpr ⟨once, onceRest, fun name first _ later same => ?_⟩
      obtain ⟨other, member, isOther⟩ := areLocal _ (same ▸ later)
      exact absent (List.mem_map.mpr ⟨other, member, isOther.inj (isLocal name first)⟩)
    · intro name member
      rcases List.mem_append.mp member with first | later
      · exact ⟨property, List.mem_cons_self, isLocal name first⟩
      · obtain ⟨other, inside, isOther⟩ := areLocal name later
        exact ⟨other, List.mem_cons_of_mem _ inside, isOther⟩

theorem flat_property (property : Property) (counters : Counters) :
    (Get.property runtime property counters).2.1.Flat := by
  unfold Get.property
  split
  · simp
  · split
    · simp
    · simp [Expr.cloned]

theorem flat_properties (properties : List Property) (counters : Counters) :
    ∀ value ∈ (Get.properties runtime properties counters).2, value.Flat := by
  induction properties generalizing counters with
  | nil => exact nofun
  | cons property rest ih => exact List.forall_mem_cons.mpr ⟨flat_property property counters, ih _⟩

/-! What is used. Statements for an element may declare a variable that the expression uses. -/

theorem within_element (runtime : Path) (type : ResolvedType) (source : Expr)
    {inner : Expr → Ident → Counters → Body × Counters}
    (within : ∀ copy counters, Body.Within names (inner source copy counters).1)
    (declares : ∀ copy counters, type.holdsEntities = true → (∀ target, type ≠ .entity target) →
      Body.declared (inner source copy counters).1 = [copy.name])
    (self : "self" ∈ names) (dirty : dirtyVar.name ∈ names) (sourceWithin : source.Within names)
    (counters : Counters) :
    let made := element runtime inner type source counters
    Body.Within names made.1 ∧ made.2.1.Within (Body.declared made.1 ++ names) := by
  intro made
  by_cases direct : ∃ target, type = .entity target
  · obtain ⟨target, rfl⟩ := direct
    simp [made, element, reconciled, idOf, Expr.borrow, self, dirty, sourceWithin]
  · have container : ∀ target, type ≠ .entity target := fun target same => direct ⟨target, same⟩
    simp only [made, element_of_container container]
    split
    next holds => exact ⟨within .., by simp [declares _ _ holds container]⟩
    next => simp [Expr.cloned, sourceWithin]

theorem declared_rebuild {type : ResolvedType} (holds : type.holdsEntities = true)
    (container : ∀ target, type ≠ .entity target) (source : Expr) (copy : Ident)
    (counters : Counters) :
    Body.declared (rebuild runtime type source copy counters).1 = [copy.name] := by
  cases type with
  | list => rfl
  | map => rfl
  | entity target => exact (container target rfl).elim
  | leaf => cases holds
  | other => cases holds

theorem within_grow {copy : Ident} {container : Container} {values : List Expr} :
    (grow copy container values).Within names ↔
      copy.name ∈ names ∧ ∀ value ∈ values, value.Within names := by
  simp [grow]

theorem within_rebuild (runtime : Path) : (type : ResolvedType) → {names : List String} → "self" ∈ names →
    dirtyVar.name ∈ names → {source : Expr} → source.Within names → (copy : Ident) →
    (counters : Counters) → Body.Within names (rebuild runtime type source copy counters).1
  | .list kind elem, names, self, dirty, source, within, copy, counters => by
    let item := Naming.itemVar counters.loops
    let inside := item.name :: copy.name :: names
    have more : names ⊆ inside := by simp [inside]
    obtain ⟨body, value⟩ := within_element runtime elem (.name item)
      (within_rebuild runtime elem (more self) (more dirty) (by simp [inside]))
      (fun _ _ holds container => declared_rebuild holds container ..) (more self) (more dirty)
      (by simp [inside]) { counters with loops := counters.loops + 1 }
    have iterated : (source.get "iter").Within (copy.name :: names) := by
      simpa [Expr.get] using within.mono (List.subset_cons_self _ _)
    simpa [rebuild, within_grow, Body.within_append, Stmt.declared, freshCopy, Binding.names,
      iterated] using ⟨body, value⟩
  | .map kind key value, names, self, dirty, source, within, copy, counters => by
    let keyVar := Naming.keyVar counters.loops
    let valueVar := Naming.valueVar counters.loops
    let inside := keyVar.name :: valueVar.name :: copy.name :: names
    have more : names ⊆ inside := fun name member => by simp [inside, member]
    obtain ⟨keyBody, newKey⟩ := within_element runtime key (.name keyVar)
      (within_rebuild runtime key (more self) (more dirty) (by simp [inside]))
      (fun _ _ holds container => declared_rebuild holds container ..) (more self) (more dirty)
      (by simp [inside]) { counters with loops := counters.loops + 1 }
    set keys := element runtime (rebuild runtime key) key (.name keyVar)
      { counters with loops := counters.loops + 1 } with isKeys
    obtain ⟨valueBody, newValue⟩ := within_element runtime value (.name valueVar)
      (within_rebuild runtime value (more self) (more dirty) (by simp [inside]))
      (fun _ _ holds container => declared_rebuild holds container ..) (more self) (more dirty)
      (by simp [inside]) keys.2.2
    set values := element runtime (rebuild runtime value) value (.name valueVar) keys.2.2
      with isValues
    have iterated : (source.get "iter").Within (copy.name :: names) := by
      simpa [Expr.get] using within.mono (List.subset_cons_self _ _)
    have valueBody := valueBody.mono (List.subset_append_right (Body.declared keys.1) inside)
    let last := Body.declared values.1 ++ (Body.declared keys.1 ++ inside)
    have newKey : keys.2.1.Within last := newKey.mono (List.subset_append_right ..)
    have newValue : values.2.1.Within last := newValue.mono (by simp [last])
    simpa [rebuild, within_grow, Body.within_append, Stmt.declared, freshCopy, Binding.names,
      iterated] using ⟨keyBody, valueBody, newKey, newValue⟩
  | .leaf _, _, _, _, _, _, _, _ | .entity _, _, _, _, _, _, _, _
  | .other _ _, _, _, _, _, _, _, _ => Body.within_nil

theorem within_property (runtime : Path) (self : "self" ∈ names) (dirty : dirtyVar.name ∈ names)
    (cached : cachedVar.name ∈ names) (property : Property) (counters : Counters) :
    let made := Get.property runtime property counters
    Body.Within names made.1 ∧ made.2.1.Within (Body.declared made.1 ++ names) := by
  intro made
  have cached : ((Expr.name cachedVar).call (Naming.getter property.name) []).Within names := by
    simpa using cached
  by_cases direct : ∃ target, property.resolved = .entity target
  · obtain ⟨target, isEntity⟩ := direct
    simp only [made, Get.property, isEntity]
    simp [reconciled, idOf, Expr.borrow, self, dirty, cached, Stmt.declared]
  · have container : ∀ target, property.resolved ≠ .entity target := fun target same =>
      direct ⟨target, same⟩
    simp only [made, property_of_container container]
    split
    next holds =>
      exact ⟨within_rebuild runtime _ self dirty cached _ _, by simp [declared_rebuild holds container]⟩
    next => simp [Expr.cloned, cached]

/-- The value of a property may use a variable that is declared long before. -/
theorem within_properties (runtime : Path) (properties : List Property) {names : List String}
    (self : "self" ∈ names) (dirty : dirtyVar.name ∈ names) (cached : cachedVar.name ∈ names)
    (counters : Counters) :
    let made := Get.properties runtime properties counters
    Body.Within names made.1 ∧ ∀ value ∈ made.2, value.Within (Body.declared made.1 ++ names) := by
  induction properties generalizing counters with
  | nil => exact ⟨Body.within_nil, nofun⟩
  | cons property rest ih =>
    obtain ⟨body, value⟩ := within_property runtime self dirty cached property counters
    obtain ⟨bodies, values⟩ := ih (Get.property runtime property counters).2.2
    have body' := bodies.mono (List.subset_append_right
      (Body.declared (Get.property runtime property counters).1) names)
    refine ⟨Body.within_append.mpr ⟨body, body'⟩, List.forall_mem_cons.mpr ⟨?_, ?_⟩⟩
    · refine value.mono fun name member => ?_
      rcases List.mem_append.mp member with here | outside
      · simp [Get.properties, here]
      · simp [outside]
    · refine fun value member => (values value member).mono fun name inside => ?_
      rcases List.mem_append.mp inside with here | outside
      · simp [Get.properties, here]
      · simp [outside]

end Generated.Get

def Naming.IsFixed (name : String) : Prop :=
  Naming.family name ≠ [] ∧ Naming.endsInDigit name = false

instance (name : String) : Decidable (Naming.IsFixed name) := inferInstanceAs (Decidable (_ ∧ _))

/-- What a method is called with. -/
def Method.given (method : Method) : List String :=
  "self" :: method.params.map fun param => param.1.name

/-- A body of a method that is called with values of these names binds each name once, and none of
these again, and what it uses is among these wherever nothing in scope binds it. -/
structure Body.Hygienic (given : List String) (body : Body) : Prop where
  once : (given ++ Body.bound body).Nodup
  within : Body.Within given body

theorem Naming.nodup_parts (fixed : List String) {own names : List String} {used next : String → Nat}
    (fixedOnce : fixed.Nodup) (isFixed : ∀ name ∈ fixed, Naming.IsFixed name)
    (once : own.Nodup)
    (isOwn : ∀ name ∈ own, Naming.family name = [] ∧ Naming.endsInDigit name = false)
    (draws : Draws used next names) : (fixed ++ (own ++ names)).Nodup := by
  refine List.nodup_append.mpr ⟨fixedOnce, List.nodup_append.mpr ⟨once, draws.once, ?_⟩, ?_⟩
  · rintro name member _ drawn rfl
    exact Bool.false_ne_true ((isOwn name member).2.symm.trans (draws.endsInDigit drawn))
  · rintro name member _ other rfl
    rcases List.mem_append.mp other with isLocal | drawn
    · exact (isFixed name member).1 (isOwn name isLocal).1
    · exact Bool.false_ne_true ((isFixed name member).2.symm.trans (draws.endsInDigit drawn))

namespace Generated.Get

theorem bound_beginning (entity : Entity) :
    Body.bound (beginning entity) = [cachedVar.name, dirtyVar.name] := by
  simp [beginning, Get.read, Expr.self]

theorem bound_ending (entity : Entity) {args : List Expr} (flat : ∀ arg ∈ args, arg.Flat) :
    Body.bound (ending entity args) = [] := by
  have rebuilt : (Expr.invoke (entity.type.fromStore.step ⟨"new", false⟩) args).Flat := by
    simpa using flat
  simp [ending, rebuilt]

theorem hygienic_body (runtime : Path) (entity : Entity)
    (distinct : (entity.properties.map fun property => property.name.name).Nodup) :
    Body.Hygienic ["self", "id"] (body runtime entity) := by
  have read : (Get.read entity).Within ["self", "id"] := by
    simp [Get.read, idVar, Naming.plain]
  unfold body
  split
  case isFalse => exact ⟨by simp [Get.read, Expr.self], by simp [read]⟩
  case isTrue =>
    let inside := [dirtyVar.name, cachedVar.name, "self", "id"]
    obtain ⟨own, names, next, bound, once, isLocal, draws⟩ :=
      bound_properties runtime distinct {}
    have self : "self" ∈ inside := by simp [inside]
    obtain ⟨bodies, values⟩ := within_properties runtime entity.properties self (by simp [inside])
      (by simp [inside]) {}
    rw [rebuilding_eq]
    constructor
    · have parts := Naming.nodup_parts ["self", "id", cachedVar.name, dirtyVar.name]
        (by decide) (by decide) once (fun name member => by
          obtain ⟨property, -, isLocal⟩ := isLocal name member
          exact ⟨isLocal.family, isLocal.endsInDigit⟩) draws
      have order := bound.append_left ["self", "id", cachedVar.name, dirtyVar.name]
      rw [Body.bound_append, Body.bound_append, bound_beginning,
        bound_ending entity (flat_properties entity.properties {}), List.append_nil]
      exact order.nodup_iff.mpr parts
    · have literal : Code.variables [.plain "false"] ⊆ [cachedVar.name, "self", "id"] :=
        List.nil_subset _
      simpa [Body.within_append, beginning, ending, read, Stmt.declared, literal] using
        ⟨bodies, values⟩

end Generated.Get

namespace Generated.Put

variable {source : Expr} {names : List String}

/-- The variables of a loop. -/
theorem draws_loop (stems : List String) (once : stems.Nodup)
    (isStem : ∀ stem ∈ stems, Naming.IsStem stem) (loops : Nat) :
    Draws (fun _ => loops) (fun _ => loops + 1) (stems.map fun stem => stem ++ toString loops) :=
  .each stems once isStem (fun _ => Nat.le_succ _) fun _ _ => Nat.lt_succ_self _

theorem draws_walk : (type : ResolvedType) → {source : Expr} → source.Flat → (loops : Nat) →
    let made := walk type source loops
    Draws (fun _ => loops) (fun _ => made.2) (Body.bound made.1)
  | .entity target, source, flat, loops => by
    simpa [walk, store, Expr.self, Expr.cloned, flat] using .nil fun _ => Nat.le_refl _
  | .list _ elem, source, flat, loops => by
    have inner := draws_walk elem (Expr.flat_name (x := Naming.itemVar loops)) (loops + 1)
    have var : Draws (fun _ => loops) (fun _ => loops + 1) [(Naming.itemVar loops).name] :=
      draws_loop ["item"] (by decide) (by decide) loops
    have iterated : (source.get "iter").Flat := by simp [Expr.get, flat]
    unfold walk
    split
    · simpa [Binding.names, iterated] using var.append inner
    · exact .nil fun _ => Nat.le_refl _
  | .map _ key value, source, flat, loops => by
    have keyVar : Draws (fun _ => loops) (fun _ => loops + 1) [(Naming.keyVar loops).name] :=
      draws_loop ["key"] (by decide) (by decide) loops
    have valueVar : Draws (fun _ => loops) (fun _ => loops + 1) [(Naming.valueVar loops).name] :=
      draws_loop ["value"] (by decide) (by decide) loops
    have vars : Draws (fun _ => loops) (fun _ => loops + 1)
        [(Naming.keyVar loops).name, (Naming.valueVar loops).name] :=
      draws_loop ["key", "value"] (by decide) (by decide) loops
    have keys := draws_walk key (Expr.flat_name (x := Naming.keyVar loops)) (loops + 1)
    have values := draws_walk value (Expr.flat_name (x := Naming.valueVar loops))
    have iterated (method : String) : (source.get method).Flat := by simp [Expr.get, flat]
    unfold walk
    split
    · simpa [Binding.names, iterated] using vars.append (keys.append (values _))
    · simpa [Binding.names, iterated] using keyVar.append keys
    · simpa [Binding.names, iterated] using valueVar.append (values _)
    · exact .nil fun _ => Nat.le_refl _
  | .leaf _, _, _, loops | .other _ _, _, _, loops => .nil fun _ => Nat.le_refl _

theorem within_walk : (type : ResolvedType) → {names : List String} → "self" ∈ names →
    dirtyVar.name ∈ names → {source : Expr} → source.Within names → (loops : Nat) →
    Body.Within names (walk type source loops).1
  | .entity target, names, self, dirty, source, within, loops => by
    simp [walk, store, self, dirty, Expr.cloned, within]
  | .list _ elem, names, self, dirty, source, within, loops => by
    have iterated : (source.get "iter").Within names := by simpa [Expr.get] using within
    have inner : Body.Within ((Naming.itemVar loops).name :: names)
        (walk elem (.name (Naming.itemVar loops)) (loops + 1)).1 :=
      within_walk elem (by simp [self]) (by simp [dirty]) (by simp) (loops + 1)
    unfold walk
    split
    · simpa [Binding.names, iterated] using inner
    · exact Body.within_nil
  | .map _ key value, names, self, dirty, source, within, loops => by
    have iterated (method : String) : (source.get method).Within names := by
      simpa [Expr.get] using within
    have keys {names : List String} (self : "self" ∈ names) (dirty : dirtyVar.name ∈ names)
        (var : (Naming.keyVar loops).name ∈ names) :
        Body.Within names (walk key (.name (Naming.keyVar loops)) (loops + 1)).1 :=
      within_walk key self dirty (by simpa using var) _
    have values {names : List String} (self : "self" ∈ names) (dirty : dirtyVar.name ∈ names)
        (var : (Naming.valueVar loops).name ∈ names) (next : Nat) :
        Body.Within names (walk value (.name (Naming.valueVar loops)) next).1 :=
      within_walk value self dirty (by simpa using var) next
    unfold walk
    split <;> simp [Binding.names, iterated, Body.within_append, keys, values, self, dirty]
  | .leaf _, _, _, _, _, _, _ | .other _ _, _, _, _, _, _, _ => Body.within_nil

theorem bound_walkAll (properties : List Property) (loops : Nat) :
    ∃ next, Draws (fun _ => loops) next (Body.bound (walkAll properties loops)) := by
  induction properties generalizing loops with
  | nil => exact ⟨_, .nil fun _ => Nat.le_refl _⟩
  | cons property rest ih =>
    have flat : ((Expr.name entityVar).call (Naming.getter property.name) []).Flat := by simp
    have first := draws_walk property.resolved flat loops
    obtain ⟨next, more⟩ := ih (walk property.resolved
      ((Expr.name entityVar).call (Naming.getter property.name) []) loops).2
    refine ⟨next, ?_⟩
    rw [walkAll, Body.bound_append]
    exact first.append more

theorem within_walkAll {properties : List Property} {names : List String} (self : "self" ∈ names)
    (dirty : dirtyVar.name ∈ names) (entity : entityVar.name ∈ names) (loops : Nat) :
    Body.Within names (walkAll properties loops) := by
  induction properties generalizing names loops with
  | nil => exact Body.within_nil
  | cons property rest ih =>
    have source : ((Expr.name entityVar).call (Naming.getter property.name) []).Within names := by
      simpa using entity
    have first := within_walk property.resolved self dirty source loops
    exact Body.within_append.mpr ⟨first, ih (by simp [self]) (by simp [dirty]) (by simp [entity]) _⟩

/-- The statement that binds the parameter anew: the entity becomes a shared one. -/
def sharing : Stmt := .decl false entityVar none (some (.invoke Code.newShared [.name entityVar]))

theorem hygienic_body (entity : Entity) : ∃ rest, body entity = sharing :: rest ∧
    Body.Hygienic ["self", "entity"] rest ∧ Body.Within ["self", "entity"] (body entity) := by
  obtain ⟨next, draws⟩ := bound_walkAll entity.properties 0
  have walked : Body.Within [dirtyVar.name, "self", "entity"] (walkAll entity.properties 0) :=
    within_walkAll (by simp) (by simp) (by simp [entityVar, Naming.plain]) 0
  have parts := Naming.nodup_parts ["self", "entity", dirtyVar.name] (by decide)
    (by decide) .nil (List.forall_mem_nil _) draws
  have isEntity : entityVar.name = "entity" := rfl
  have within : Body.Within ["self", "entity"] (body entity).tail := by
    simpa [body, Expr.borrow, Body.within_append, Stmt.declared, isEntity] using walked
  refine ⟨_, rfl, ⟨?_, within⟩, Body.within_cons.mpr ⟨?_, within.mono (by simp)⟩⟩
  · simpa [Expr.borrow, Expr.self] using parts
  · simp [isEntity]

end Generated.Put

namespace Entity

open Generated

/-- The names in the methods that read and store an entity are used with care: each is bound once
and none like a parameter, and each use of a name is in the scope of what binds it. The one
exception is the parameter that the second method binds anew. -/
structure Hygienic (runtime : Path) (entity : Entity) : Prop where
  get : ∃ body, (Get.method runtime entity).body = some body ∧
    Body.Hygienic (Get.method runtime entity).given body
  put : ∃ rest, (Put.method entity).body = some (Put.sharing :: rest) ∧
    Body.Hygienic (Put.method entity).given rest ∧
    Body.Within (Put.method entity).given (Put.sharing :: rest)

theorem hygienic (runtime : Path) (entity : Entity)
    (distinct : (entity.properties.map fun property => property.name.name).Nodup) :
    entity.Hygienic runtime := by
  obtain ⟨rest, isBody, hygienic, within⟩ := Put.hygienic_body entity
  refine ⟨⟨_, rfl, Get.hygienic_body runtime entity distinct⟩, rest, ?_, hygienic, ?_⟩
  · exact congrArg some isBody
  · rw [← isBody]
    exact within

end Entity

theorem Library.hygienic_book :
    (Library.book.properties.map fun property => property.name.name) = ["id", "main", "roles"] ∧
      Library.book.Hygienic ⟨false, []⟩ :=
  ⟨by decide, Entity.hygienic ⟨false, []⟩ Library.book (by decide)⟩

example : Body.bound (Generated.Get.body ⟨false, []⟩ Library.book) =
    ["cached", "dirty", "main_latest", "roles_copy", "key0", "value0", "copy0", "item1"] := by
  decide +kernel

end EntityGen
