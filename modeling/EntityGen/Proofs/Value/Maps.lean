import EntityGen.Proofs.Value.Order
import EntityGen.Semantics.Reading
import Mathlib.Data.List.Induction
import Mathlib.Data.List.Nodup

/-! Maps as lists of pairs in the order of their keys. A map that is grown from entries has no
others, is in order whatever the entries are, and is the map that they are the entries of if they
have different keys. -/
namespace EntityGen

namespace Value

def entry (pair : Value × Value) : Value := .pair pair.1 pair.2

theorem entry_injective : Function.Injective entry := by
  intro a b same
  simpa [entry, Prod.ext_iff] using same

def Ascending (pairs : List (Value × Value)) : Prop :=
  pairs.Pairwise fun a b => compare a.1 b.1 = .lt

theorem mem_insertEntry {key value entry : Value} {map : List Value}
    (member : entry ∈ insertEntry key value map) : entry = .pair key value ∨ entry ∈ map := by
  fun_induction insertEntry key value map with
  | case1 => simpa using member
  | case2 => simpa using member
  | case3 other old rest same =>
    obtain rfl := (compare_eq_iff key other).mp same
    rcases List.mem_cons.mp member with first | tail
    · exact .inl first
    · exact .inr (List.mem_cons_of_mem _ tail)
  | case4 other old rest after ih =>
    rcases List.mem_cons.mp member with first | tail
    · exact .inr (first ▸ List.mem_cons_self)
    · exact (ih tail).imp_right (List.mem_cons_of_mem _)
  | case5 other rest notPair ih =>
    rcases List.mem_cons.mp member with first | tail
    · exact .inr (first ▸ List.mem_cons_self)
    · exact (ih tail).imp_right (List.mem_cons_of_mem _)

def insertPair (key value : Value) : List (Value × Value) → List (Value × Value)
  | [] => [(key, value)]
  | (other, old) :: rest =>
    match compare key other with
    | .lt => (key, value) :: (other, old) :: rest
    | .eq => (other, value) :: rest
    | .gt => (other, old) :: insertPair key value rest

theorem insertEntry_map_entry (key value : Value) (pairs : List (Value × Value)) :
    insertEntry key value (pairs.map entry) = (insertPair key value pairs).map entry := by
  fun_induction insertPair key value pairs with
  | case1 => rfl
  | case2 other old rest before => simp [entry, insertEntry, before]
  | case3 other old rest same => simp [entry, insertEntry, same]
  | case4 other old rest after ih => simpa [entry, insertEntry, after] using ih

theorem mem_insertPair {key value : Value} {pairs : List (Value × Value)} {pair : Value × Value}
    (member : pair ∈ insertPair key value pairs) : pair = (key, value) ∨ pair ∈ pairs := by
  have entered : entry pair ∈ insertEntry key value (pairs.map entry) := by
    rw [insertEntry_map_entry]
    exact List.mem_map_of_mem member
  rcases mem_insertEntry entered with new | old
  · exact .inl (by simpa [entry, Prod.ext_iff] using new)
  · obtain ⟨other, inside, same⟩ := List.mem_map.mp old
    have equal : other = pair := by simpa [entry, Prod.ext_iff] using same
    exact .inr (equal ▸ inside)

theorem mem_keys_insertPair {key value other : Value} {pairs : List (Value × Value)} :
    other ∈ (insertPair key value pairs).map Prod.fst ↔ other = key ∨ other ∈ pairs.map Prod.fst := by
  fun_induction insertPair key value pairs with
  | case1 => simp
  | case2 => simp
  | case3 first old rest same =>
    obtain rfl := (compare_eq_iff key first).mp same
    simp
  | case4 first old rest after ih =>
    rw [List.map_cons, List.mem_cons, ih, List.map_cons, List.mem_cons, or_left_comm]

theorem mem_insertPair_self (key value : Value) (pairs : List (Value × Value)) :
    (key, value) ∈ insertPair key value pairs := by
  fun_induction insertPair key value pairs with
  | case1 => exact List.mem_singleton_self _
  | case2 => exact List.mem_cons_self
  | case3 other old rest same =>
    obtain rfl := (compare_eq_iff key other).mp same
    exact List.mem_cons_self
  | case4 other old rest after ih => exact List.mem_cons_of_mem _ ih

/-- Entries of other keys stay. -/
theorem mem_insertPair_of_mem {key value : Value} {pairs : List (Value × Value)}
    {pair : Value × Value} (member : pair ∈ pairs) (other : pair.1 ≠ key) :
    pair ∈ insertPair key value pairs := by
  fun_induction insertPair key value pairs with
  | case1 => cases member
  | case2 => exact List.mem_cons_of_mem _ member
  | case3 first old rest same =>
    obtain rfl := (compare_eq_iff key first).mp same
    rcases List.mem_cons.mp member with rfl | tail
    · exact absurd rfl other
    · exact List.mem_cons_of_mem _ tail
  | case4 first old rest after ih =>
    rcases List.mem_cons.mp member with rfl | tail
    · exact List.mem_cons_self
    · exact List.mem_cons_of_mem _ (ih tail)

theorem insertPair_ascending (key value : Value) (pairs : List (Value × Value))
    (ascending : Ascending pairs) : Ascending (insertPair key value pairs) := by
  fun_induction insertPair key value pairs with
  | case1 => exact List.pairwise_singleton _ _
  | case2 other old rest before =>
    refine List.pairwise_cons.mpr ⟨?_, ascending⟩
    intro pair member
    rcases List.mem_cons.mp member with rfl | tail
    · exact before
    · exact compare_lt_trans _ _ _ before ((List.pairwise_cons.mp ascending).1 pair tail)
  | case3 other old rest same =>
    exact List.pairwise_cons.mpr (List.pairwise_cons.mp ascending)
  | case4 other old rest after ih =>
    obtain ⟨least, tail⟩ := List.pairwise_cons.mp ascending
    refine List.pairwise_cons.mpr ⟨?_, ih tail⟩
    intro pair member
    rcases mem_insertPair member with rfl | member
    · exact (compare_gt_iff key other).mp after
    · exact least pair member

theorem insertPair_perm (key value : Value) (pairs : List (Value × Value))
    (fresh : key ∉ pairs.map Prod.fst) :
    (insertPair key value pairs).Perm ((key, value) :: pairs) := by
  fun_induction insertPair key value pairs with
  | case1 => exact .refl _
  | case2 => exact .refl _
  | case3 other old rest same =>
    obtain rfl := (compare_eq_iff key other).mp same
    simp at fresh
  | case4 other old rest after ih =>
    have freshRest : key ∉ rest.map Prod.fst := fun member =>
      fresh (List.mem_cons_of_mem _ member)
    exact ((ih freshRest).cons _).trans (List.Perm.swap _ _ _)

end Value

namespace Reading

open Value

theorem mem_grow {entry : Value} {entries : List Value} (member : entry ∈ grow entries) :
    entry ∈ entries := by
  suffices general : ∀ map : List Value, entry ∈ entries.foldl enter map →
      entry ∈ map ∨ entry ∈ entries by
    simpa using general [] member
  clear member
  induction entries with
  | nil => simp
  | cons first rest ih =>
    intro map member
    rcases ih _ member with grown | inside
    · cases first with
      | pair key value => exact (mem_insertEntry grown).elim (fun new => .inr (by simp [new])) .inl
      | _ => exact .inl grown
    · exact .inr (List.mem_cons_of_mem _ inside)

def growPairs (pairs : List (Value × Value)) : List (Value × Value) :=
  pairs.foldl (fun map pair => insertPair pair.1 pair.2 map) []

theorem grow_map_entry (pairs : List (Value × Value)) :
    grow (pairs.map entry) = (growPairs pairs).map entry := by
  suffices general : ∀ map : List (Value × Value),
      (pairs.map entry).foldl enter (map.map entry) =
        (pairs.foldl (fun map pair => insertPair pair.1 pair.2 map) map).map entry from general []
  induction pairs with
  | nil => simp
  | cons pair rest ih =>
    intro map
    have step : enter (map.map entry) (entry pair) = (insertPair pair.1 pair.2 map).map entry :=
      insertEntry_map_entry _ _ _
    simpa only [List.map_cons, List.foldl_cons, step] using ih _

theorem mem_growPairs {pair : Value × Value} {pairs : List (Value × Value)}
    (member : pair ∈ growPairs pairs) : pair ∈ pairs := by
  have grown : entry pair ∈ grow (pairs.map entry) := by
    rw [grow_map_entry]
    exact List.mem_map_of_mem member
  obtain ⟨other, inside, same⟩ := List.mem_map.mp (mem_grow grown)
  have equal : other = pair := by simpa [entry, Prod.ext_iff] using same
  exact equal ▸ inside

/-- Growing a map loses no key. -/
theorem mem_keys_growPairs {key : Value} {pairs : List (Value × Value)} :
    key ∈ (growPairs pairs).map Prod.fst ↔ key ∈ pairs.map Prod.fst := by
  suffices general : ∀ map : List (Value × Value),
      key ∈ (pairs.foldl (fun map pair => insertPair pair.1 pair.2 map) map).map Prod.fst ↔
        key ∈ pairs.map Prod.fst ∨ key ∈ map.map Prod.fst from
    (general []).trans (or_iff_left List.not_mem_nil)
  induction pairs with
  | nil => simp
  | cons pair rest ih =>
    intro map
    rw [List.foldl_cons, ih, mem_keys_insertPair, List.map_cons, List.mem_cons]
    exact or_left_comm.trans or_assoc.symm

theorem growPairs_ascending (pairs : List (Value × Value)) : Ascending (growPairs pairs) := by
  suffices general : ∀ map : List (Value × Value), Ascending map →
      Ascending (pairs.foldl (fun map pair => insertPair pair.1 pair.2 map) map) from
    general [] List.Pairwise.nil
  induction pairs with
  | nil => exact fun map ascending => ascending
  | cons pair rest ih => exact fun map ascending => ih _ (insertPair_ascending _ _ map ascending)

theorem growPairs_perm (pairs : List (Value × Value)) (distinct : (pairs.map Prod.fst).Nodup) :
    (growPairs pairs).Perm pairs := by
  suffices general : ∀ map : List (Value × Value), ((map ++ pairs).map Prod.fst).Nodup →
      (pairs.foldl (fun map pair => insertPair pair.1 pair.2 map) map).Perm (map ++ pairs) from
    general [] distinct
  clear distinct
  induction pairs with
  | nil => simp
  | cons pair rest ih =>
    intro map distinct
    have moved : (map ++ pair :: rest).Perm (pair :: map ++ rest) := List.perm_middle
    have distinct := (moved.map Prod.fst).nodup_iff.mp distinct
    have fresh : pair.1 ∉ map.map Prod.fst := by
      intro member
      have head := (List.nodup_cons.mp distinct).1
      exact head (by simpa using .inl (by simpa using member))
    have inserted := insertPair_perm pair.1 pair.2 map fresh
    have step := (inserted.append_right rest).map Prod.fst
    exact (ih _ (step.nodup_iff.mpr distinct)).trans ((inserted.append_right rest).trans moved.symm)

theorem Ascending.nodup_keys {pairs : List (Value × Value)} (ascending : Ascending pairs) :
    (pairs.map Prod.fst).Nodup := by
  rw [List.nodup_iff_pairwise_ne, List.pairwise_map]
  refine ascending.imp ?_
  intro a b before same
  rw [same, (compare_eq_iff _ _).mpr rfl] at before
  contradiction

/-- The entries of a map, taken in any order, grow to this map. -/
theorem growPairs_eq {pairs sorted : List (Value × Value)} (perm : pairs.Perm sorted)
    (ascending : Ascending sorted) : growPairs pairs = sorted := by
  have distinct : (pairs.map Prod.fst).Nodup :=
    (perm.map Prod.fst).nodup_iff.mpr (Ascending.nodup_keys ascending)
  refine List.Perm.eq_of_pairwise ?_ (growPairs_ascending pairs) ascending
    ((growPairs_perm pairs distinct).trans perm)
  intro a b _ _ before after
  have circle := compare_lt_trans _ _ _ before after
  rw [(compare_eq_iff _ _).mpr rfl] at circle
  contradiction

/-- Maps with the same entries are equal. -/
theorem Ascending.eq_of_subset {pairs others : List (Value × Value)} (ascending : Ascending pairs)
    (otherAscending : Ascending others) (subset : pairs ⊆ others) (back : others ⊆ pairs) :
    pairs = others := by
  have distinct := List.Nodup.of_map Prod.fst (Ascending.nodup_keys ascending)
  have otherDistinct := List.Nodup.of_map Prod.fst (Ascending.nodup_keys otherAscending)
  have perm : pairs.Perm others := (List.perm_ext_iff_of_nodup distinct otherDistinct).mpr
    fun pair => ⟨@subset pair, @back pair⟩
  exact (growPairs_eq (.refl _) ascending).symm.trans (growPairs_eq perm otherAscending)

theorem Ascending.eq_of_key {pairs : List (Value × Value)} (ascending : Ascending pairs)
    {a b : Value × Value} (first : a ∈ pairs) (second : b ∈ pairs) (same : a.1 = b.1) : a = b :=
  List.inj_on_of_nodup_map (Ascending.nodup_keys ascending) first second same

section Alike

variable {α : Type} {list : List α} {f g : α → Value × Value}

/-- Two maps are grown from entries of the same keys: where an entry of the first comes from, there
the second has one as well. By induction on the entries from the last one, which hides those before
it in both maps. -/
theorem mem_growPairs_alike (keys : ∀ a ∈ list, (f a).1 = (g a).1) {pair : Value × Value}
    (member : pair ∈ growPairs (list.map f)) :
    ∃ a ∈ list, f a = pair ∧ g a ∈ growPairs (list.map g) := by
  induction list using List.reverseRecOn with
  | nil => cases member
  | append_singleton rest last ih =>
    simp only [growPairs, List.map_append, List.map_cons, List.map_nil, List.foldl_append,
      List.foldl_cons, List.foldl_nil] at member ⊢
    have inside : last ∈ rest ++ [last] := List.mem_concat_self
    by_cases hidden : pair.1 = (f last).1
    · have same : f last = pair := Ascending.eq_of_key
        (insertPair_ascending _ _ _ (growPairs_ascending (rest.map f)))
        (mem_insertPair_self _ _ _) member hidden.symm
      exact ⟨last, inside, same, mem_insertPair_self _ _ _⟩
    · have old : pair ∈ growPairs (rest.map f) :=
        (mem_insertPair member).resolve_left fun new => hidden (congrArg Prod.fst new)
      obtain ⟨a, early, rfl, grown⟩ :=
        ih (fun a early => keys a (List.mem_append_left _ early)) old
      have other : (g a).1 ≠ (g last).1 := by
        rwa [← keys a (List.mem_append_left _ early), ← keys last inside]
      exact ⟨a, List.mem_append_left _ early, rfl, mem_insertPair_of_mem grown other⟩

/-- Maps are equal if they are grown from entries of the same keys, of which those are equal that
are not hidden. -/
theorem growPairs_congr (keys : ∀ a ∈ list, (f a).1 = (g a).1)
    (same : ∀ a ∈ list, f a ∈ growPairs (list.map f) → f a = g a) :
    growPairs (list.map f) = growPairs (list.map g) := by
  refine Ascending.eq_of_subset (growPairs_ascending _) (growPairs_ascending _) ?_ ?_
  · intro pair member
    obtain ⟨a, inside, rfl, grown⟩ := mem_growPairs_alike keys member
    exact same a inside member ▸ grown
  · intro pair member
    obtain ⟨a, inside, rfl, grown⟩ :=
      mem_growPairs_alike (fun a inside => (keys a inside).symm) member
    exact same a inside grown ▸ grown

end Alike

end Reading
end EntityGen
