import EntityGen.Proofs.Execution.Positions
import EntityGen.Proofs.Storing.Reported

/-! Orders in which the entities in a value are met, put together. If each entity that stands in a
value is gone through in an order of its own, there is one order in which all of the value is gone
through in the same way. -/
namespace EntityGen

section Blocks

variable {α β γ : Type} {R : α → β → Prop} {a b : List α} {list : List β}

theorem forall₂_append_left (all : List.Forall₂ R (a ++ b) list) :
    ∃ first second, List.Forall₂ R a first ∧ List.Forall₂ R b second ∧ list = first ++ second := by
  induction a generalizing list with
  | nil => exact ⟨[], list, .nil, all, rfl⟩
  | cons head rest ih =>
    obtain ⟨here, later⟩ : ∃ x xs, R head x ∧ List.Forall₂ R (rest ++ b) xs ∧ list = x :: xs := by
      cases all with | cons here later => exact ⟨_, _, here, later, rfl⟩
    obtain ⟨xs, related, later, rfl⟩ := later
    obtain ⟨first, second, before, behind, rfl⟩ := ih later
    exact ⟨here :: first, second, .cons related before, behind, rfl⟩

theorem forall₂_flatMap_left {items : List γ} {f : γ → List α}
    (all : List.Forall₂ R (items.flatMap f) list) :
    ∃ blocks, List.Forall₂ (fun item => List.Forall₂ R (f item)) items blocks ∧
      list = blocks.flatten := by
  induction items generalizing list with
  | nil =>
    cases all
    exact ⟨[], .nil, rfl⟩
  | cons item rest ih =>
    obtain ⟨first, second, here, later, rfl⟩ := forall₂_append_left all
    obtain ⟨blocks, each, rfl⟩ := ih later
    exact ⟨first :: blocks, .cons here each, rfl⟩

end Blocks

namespace Iteration

variable {α β : Type} {R : α → β → Prop}

/-- The order of iteration of the part with this number, if there is one for it, else the last. -/
def choose (first : List Iteration) (last : Iteration) (part : Nat) : Iteration :=
  first[part]?.getD last

/-- An order of iteration from that of a map itself and those of the parts of its entries. -/
def fork (rank : Value → Nat) (parts : Nat → Iteration) : Iteration
  | [] => rank
  | part :: place => parts part place

@[simp] theorem within_fork (rank : Value → Nat) (parts : Nat → Iteration) (part : Nat) :
    (fork rank parts).within part = parts part := rfl

theorem arrange_fork (iteration : Iteration) (parts : Nat → Iteration) (kind : MapKind)
    (entries : List Value) (results : List α) :
    (fork (iteration []) parts).arrange kind entries results =
      iteration.arrange kind entries results := rfl

/-- What is met in the order of a map belongs to the entries as they stand in it. -/
theorem exists_of_forall₂_arrange (iteration : Iteration) (kind : MapKind)
    {entries : List Value} {results : List α} {met : List β}
    (lengths : results.length = entries.length)
    (each : List.Forall₂ R (iteration.arrange kind entries results) met) :
    ∃ found, List.Forall₂ R results found ∧ iteration.arrange kind entries found = met := by
  let n := results.length
  let order := iteration.arrange kind entries (List.finRange n)
  have perm : order.Perm (List.finRange n) :=
    arrange_perm _ _ _ _ (by simp [n, lengths])
  have nodup : order.Nodup := perm.nodup_iff.mpr (List.nodup_finRange n)
  have whole : (List.finRange n).map results.get = results := List.map_get_finRange results
  have arranged : iteration.arrange kind entries results = order.map results.get := by
    conv_lhs => rw [← whole, arrange_map]
  rw [arranged] at each
  have count : order.length = met.length := by simpa using each.length_eq
  have place (i : Fin n) : order.idxOf i < met.length := by
    rw [← count, List.idxOf_lt_length_iff]
    exact perm.mem_iff.mpr (List.mem_finRange i)
  let found (i : Fin n) : β := met.get ⟨order.idxOf i, place i⟩
  refine ⟨(List.finRange n).map found, ?_, ?_⟩
  · rw [← whole, List.forall₂_map_left_iff, List.forall₂_map_right_iff, List.forall₂_same]
    intro i _
    have inside : order.idxOf i < (order.map results.get).length := by simpa [count] using place i
    have here := (List.forall₂_iff_get.mp each).2 (order.idxOf i) inside (place i)
    simpa [found] using here
  · rw [arrange_map]
    refine List.ext_getElem (by simpa using count) fun i bound inside => ?_
    simp [found, order, nodup.idxOf_getElem]

end Iteration

namespace Schema

variable {schema : Schema} {iteration : Iteration} {listings : List (List EntityValue)}

/-- The entities of a value in some order. -/
def Lists (schema : Schema) (type : ResolvedType) (value : Value) (entities : List EntityValue) :
    Prop :=
  ∃ iteration, schema.listing iteration type value = entities

/-- Each of some entities is gone through in an order of its own. -/
def ListsEach (schema : Schema) : List EntityValue → List (List EntityValue) → Prop :=
  List.Forall₂ fun entity => schema.Lists (.entity entity.type) entity.value

/-- Whatever the orders are for the entities that stand in a datum, there is one for all of it. -/
def Joins (schema : Schema) (datum : Datum) : Prop :=
  ∀ listings, schema.ListsEach datum.positions listings →
    schema.Lists datum.type datum.value listings.flatten

theorem exists_listFields {types : List ResolvedType} {fields : List Value}
    (joins : ∀ datum ∈ Datum.row types fields iteration, schema.Joins datum)
    (each : schema.ListsEach ((Datum.row types fields iteration).flatMap Datum.positions)
      listings) :
    ∃ order, (schema.listFields order types fields).flatten = listings.flatten := by
  induction types generalizing fields iteration listings with
  | nil =>
    cases each
    exact ⟨.sorted, by cases fields <;> rfl⟩
  | cons type types ih =>
    cases fields with
    | nil =>
      cases each
      exact ⟨.sorted, rfl⟩
    | cons field fields =>
      rw [Datum.row_cons] at joins each
      obtain ⟨first, rest, here, later, rfl⟩ := forall₂_append_left each
      obtain ⟨inside, listed⟩ := joins _ List.mem_cons_self first here
      obtain ⟨behind, others⟩ := ih (fun datum member => joins datum (.tail _ member)) later
      refine ⟨.fork (fun _ => 0) (.choose [inside] behind), ?_⟩
      rw [listFields, List.flatten_cons, List.flatten_append]
      exact congrArg₂ (· ++ ·) listed others

theorem exists_listItems {data : List Datum} {elem : ResolvedType}
    (types : ∀ datum ∈ data, datum.type = elem) (joins : ∀ datum ∈ data, schema.Joins datum)
    (each : schema.ListsEach (data.flatMap Datum.positions) listings) :
    ∃ order, (schema.listItems order elem (data.map Datum.value)).flatten = listings.flatten := by
  induction data generalizing listings with
  | nil =>
    cases each
    exact ⟨.sorted, rfl⟩
  | cons datum data ih =>
    obtain ⟨first, rest, here, later, rfl⟩ := forall₂_append_left each
    obtain ⟨inside, listed⟩ := joins _ List.mem_cons_self first here
    obtain ⟨behind, others⟩ := ih (fun datum member => types datum (.tail _ member))
      (fun datum member => joins datum (.tail _ member)) later
    obtain rfl := types _ List.mem_cons_self
    refine ⟨.fork (fun _ => 0) (.choose [inside] behind), ?_⟩
    rw [List.map_cons, listItems, List.flatten_cons, List.flatten_append]
    exact congrArg₂ (· ++ ·) listed others

theorem exists_listEntries {data : List (Datum × Datum)} {keyType valueType : ResolvedType}
    {blocks : List (List (List EntityValue))}
    (types : ∀ entry ∈ data, entry.1.type = keyType ∧ entry.2.type = valueType)
    (joins : ∀ entry ∈ data, schema.Joins entry.1 ∧ schema.Joins entry.2)
    (each : List.Forall₂ (fun entry => schema.ListsEach (entry.1.positions ++ entry.2.positions))
      data blocks) :
    ∃ order, schema.listEntries order keyType valueType
      (data.map fun entry => .pair entry.1.value entry.2.value) = blocks.map List.flatten := by
  induction each with
  | nil => exact ⟨.sorted, rfl⟩
  | @cons entry block data blocks here _ ih =>
    obtain ⟨keys, values, ofKey, ofValue, rfl⟩ := forall₂_append_left here
    obtain ⟨key, keyListed⟩ := (joins _ List.mem_cons_self).1 keys ofKey
    obtain ⟨value, valueListed⟩ := (joins _ List.mem_cons_self).2 values ofValue
    obtain ⟨behind, others⟩ := ih (fun entry member => types entry (.tail _ member))
      fun entry member => joins entry (.tail _ member)
    obtain ⟨rfl, rfl⟩ := types _ List.mem_cons_self
    refine ⟨.fork (fun _ => 0) (.choose [key, value] behind), ?_⟩
    rw [List.map_cons, listEntries, List.map_cons, List.flatten_append]
    exact congrArg₂ List.cons (congrArg₂ (· ++ ·) keyListed valueListed) others

/-- The order of a map itself does not matter to what its entries hold. -/
theorem listEntries_fork (rank : Value → Nat) (order : Iteration)
    (keyType valueType : ResolvedType) (entries : List Value) :
    schema.listEntries (.fork rank order.within) keyType valueType entries =
      schema.listEntries order keyType valueType entries := by
  cases entries with
  | nil => rfl
  | cons entry rest => cases entry <;> rfl

theorem joins_of_typed (typed : Typed schema type value) (iteration : Iteration) :
    schema.Joins ⟨type, value, iteration⟩ := by
  induction typed generalizing iteration with
  | leaf | other =>
    rintro listings each
    cases each
    exact ⟨.sorted, by simp [listing]⟩
  | entity =>
    rintro listings each
    obtain ⟨first, rest, listed, none, rfl⟩ := List.forall₂_cons_left_iff.mp each
    cases none
    simpa using listed
  | @list items elem kind _ ih =>
    rintro listings each
    rw [Datum.positions_list] at each
    have values : (Datum.elements ⟨.list kind elem, .seq items, iteration⟩).map Datum.value =
        items := by
      rw [Datum.elements, map_mapIdx]
      exact mapIdx_eq_self fun _ _ _ => rfl
    obtain ⟨order, listed⟩ := exists_listItems
      (fun datum member => Datum.type_of_mem_elements member) (fun datum member => by
        obtain ⟨i, bound, rfl⟩ := List.mem_mapIdx.mp member
        exact ih _ (List.getElem_mem bound) _) each
    rw [values] at listed
    exact ⟨order, by rw [listing, listed]⟩
  | @map pairs keyType valueType kind _ _ _ keys values =>
    rintro listings each
    rw [Datum.positions_map] at each
    obtain ⟨met, inOrder, rfl⟩ := forall₂_flatMap_left each
    rw [Datum.entries] at inOrder
    obtain ⟨blocks, inEntries, rfl⟩ :=
      Iteration.exists_of_forall₂_arrange _ _ (List.length_mapIdx ..) inOrder
    let data := (pairs.map Value.entry).mapIdx fun i entry =>
      ((⟨keyType, entry.key, iteration.within (2 * i)⟩ : Datum),
        (⟨valueType, entry.content, iteration.within (2 * i + 1)⟩ : Datum))
    have types : ∀ entry ∈ data, entry.1.type = keyType ∧ entry.2.type = valueType := by
      intro entry member
      obtain ⟨i, bound, rfl⟩ := List.mem_mapIdx.mp member
      exact ⟨rfl, rfl⟩
    have joins : ∀ entry ∈ data, schema.Joins entry.1 ∧ schema.Joins entry.2 := by
      intro entry member
      obtain ⟨i, bound, rfl⟩ := List.mem_mapIdx.mp member
      obtain ⟨pair, among, same⟩ := List.mem_map.mp (List.getElem_mem bound)
      rw [← same]
      exact ⟨keys pair among _, values pair among _⟩
    obtain ⟨order, listed⟩ := exists_listEntries types joins inEntries
    have entries : data.map (fun entry => Value.pair entry.1.value entry.2.value) =
        pairs.map Value.entry := by
      rw [map_mapIdx]
      refine mapIdx_eq_self fun i entry member => ?_
      obtain ⟨pair, -, rfl⟩ := List.mem_map.mp member
      rfl
    rw [entries] at listed
    refine ⟨.fork (iteration []) order.within, ?_⟩
    rw [listing, listEntries_fork, listed, Iteration.arrange_fork, Iteration.arrange_map,
      ← List.flatten_flatten]

end Schema
end EntityGen
