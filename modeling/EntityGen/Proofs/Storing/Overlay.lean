import EntityGen.Proofs.Reading.Canonical
import EntityGen.Proofs.Reading.RoundTrip
import Mathlib.Data.List.Permutation

/-! Puts of entities that agree with each other. What is put is laid over what was stored: whatever
is reached is what its slot holds afterwards, and all other slots are as they were. An overlay does
not say in which order its entities were written, so neither the order of the puts nor that of
iteration makes a difference, nor does putting an entity again. -/
namespace EntityGen

namespace Schema

def ReachedFrom (schema : Schema) (entities : List EntityValue) (reached : EntityValue) : Prop :=
  ∃ entity ∈ entities, schema.Reaches entity reached

/-- Entities of one type and id that are reached from entities of a list are equal. -/
def ConsistentAll (schema : Schema) (entities : List EntityValue) : Prop :=
  ∀ a b, schema.ReachedFrom entities a → schema.ReachedFrom entities b →
    schema.slot a = schema.slot b → a = b

/-- Some entities are laid over what was stored before. -/
structure LaidOver (schema : Schema) (entities : EntityValue → Prop)
    (before after : Slot → Option Value) : Prop where
  inside : ∀ entity, entities entity → after (schema.slot entity) = some entity.value
  outside : ∀ slot, (∀ entity, entities entity → schema.slot entity ≠ slot) →
    after slot = before slot

variable {schema : Schema} {entity : EntityValue} {first second : List EntityValue}

theorem reachedFrom_singleton :
    schema.ReachedFrom [entity] reached ↔ schema.Reaches entity reached := by
  simp [ReachedFrom]

theorem reachedFrom_cons : schema.ReachedFrom (entity :: first) reached ↔
    schema.Reaches entity reached ∨ schema.ReachedFrom first reached := by
  simp [ReachedFrom]

theorem consistentAll_singleton : schema.ConsistentAll [entity] ↔ schema.Consistent entity := by
  simp [ConsistentAll, Consistent, reachedFrom_singleton]

theorem ConsistentAll.mono (consistent : schema.ConsistentAll second)
    (inside : ∀ entity ∈ first, entity ∈ second) : schema.ConsistentAll first := by
  rintro a b ⟨owner, member, reachesA⟩ ⟨other, otherMember, reachesB⟩ same
  exact consistent a b ⟨owner, inside owner member, reachesA⟩
    ⟨other, inside other otherMember, reachesB⟩ same

namespace LaidOver

variable {entities more : EntityValue → Prop} {before middle after other : Slot → Option Value}

/-- What was stored before and what is laid over it determine what is stored. -/
theorem unique (laid : schema.LaidOver entities before after)
    (same : schema.LaidOver entities before other) : after = other := by
  funext slot
  by_cases belongs : ∃ entity, entities entity ∧ schema.slot entity = slot
  · obtain ⟨entity, member, rfl⟩ := belongs
    rw [laid.inside entity member, same.inside entity member]
  · have apart : ∀ entity, entities entity → schema.slot entity ≠ slot :=
      fun entity member equal => belongs ⟨entity, member, equal⟩
    rw [laid.outside slot apart, same.outside slot apart]

/-- One overlay over another, where no entity of the second hides another version in the first. -/
theorem trans (lower : schema.LaidOver entities before middle)
    (upper : schema.LaidOver more middle after)
    (agree : ∀ a b, entities a → more b → schema.slot a = schema.slot b → a = b) :
    schema.LaidOver (fun entity => entities entity ∨ more entity) before after := by
  constructor
  · rintro entity (below | above)
    · by_cases hidden : ∃ cover, more cover ∧ schema.slot cover = schema.slot entity
      · obtain ⟨cover, member, same⟩ := hidden
        rw [← same, upper.inside cover member, agree entity cover below member same.symm]
      · have apart : ∀ cover, more cover → schema.slot cover ≠ schema.slot entity :=
          fun cover member same => hidden ⟨cover, member, same⟩
        rw [upper.outside _ apart, lower.inside entity below]
    · exact upper.inside entity above
  · intro slot apart
    rw [upper.outside slot fun entity member => apart entity (.inr member),
      lower.outside slot fun entity member => apart entity (.inl member)]

theorem congr (laid : schema.LaidOver entities before after)
    (same : ∀ entity, entities entity ↔ more entity) : schema.LaidOver more before after :=
  (funext fun entity => propext (same entity) : entities = more) ▸ laid

end LaidOver
end Schema

namespace Repository

variable {schema : Schema} {world : World} {store : Nat} {entity : EntityValue}

/-- A put of a consistent entity lays all that is reached from it over what a writer holds. -/
theorem laidOver_put (consistent : schema.Consistent entity) (bound : store < world.stores.length)
    (order : Iteration) :
    let repository : Repository := ⟨[store], [store]⟩
    schema.LaidOver (schema.Reaches entity) (world.contents store)
      ((((repository.storing schema order).putEntity entity).run world).2.contents store) := by
  intro repository
  let storing := repository.storing schema order
  have target : store ∈ storing.writers := List.mem_singleton_self store
  constructor
  · intro reached reaches
    obtain ⟨cell, last, stored, value, lastReaches, place⟩ :=
      Storing.get_of_reaches target bound reaches
    have same : last = reached := consistent last reached lastReaches reaches place
    exact Option.map_eq_some_iff.mpr ⟨cell, stored, value.trans (congrArg EntityValue.value same)⟩
  · intro slot apart
    have value := Storing.value_putEntity entity target bound slot
    have unwritten : schema.lastAt slot (schema.entities order entity) = none := by
      refine Option.eq_none_iff_forall_ne_some.mpr fun last found => ?_
      obtain ⟨member, place⟩ := Schema.mem_of_lastAt found
      exact apart last ((Schema.mem_entities order).mp member) place
    exact value.trans (congrArg (fun last => (Option.map EntityValue.value last).or _) unwritten)

/-- Puts of consistent entities lay all that is reached from them over what was stored before. By
induction on the puts, of which each lays over what the ones before it have left. -/
theorem laidOver_run (puts : List (Iteration × EntityValue))
    (consistent : schema.ConsistentAll (puts.map Prod.snd)) (bound : store < world.stores.length) :
    schema.LaidOver (schema.ReachedFrom (puts.map Prod.snd)) (world.contents store)
      (((Repository.mk [store] [store]).run schema puts world).contents store) := by
  induction puts generalizing world with
  | nil =>
    constructor
    · rintro entity ⟨owner, none, reaches⟩
      cases none
    · exact fun slot apart => rfl
  | cons first rest ih =>
    have single : schema.Consistent first.2 := Schema.consistentAll_singleton.mp
      (consistent.mono (by simp))
    have tail : schema.ConsistentAll (rest.map Prod.snd) :=
      consistent.mono fun entity => List.mem_cons_of_mem first.2
    have lower := laidOver_put single bound first.1
    have inWorld : store < ((((Repository.mk [store] [store]).storing schema first.1).putEntity
        first.2).run world).2.stores.length := by
      rwa [Storing.world_putEntity, World.length_putAll]
    have agree : ∀ a b, schema.Reaches first.2 a → schema.ReachedFrom (rest.map Prod.snd) b →
        schema.slot a = schema.slot b → a = b := fun a b reachesA reachesB =>
      consistent a b (Schema.reachedFrom_cons.mpr (.inl reachesA))
        (Schema.reachedFrom_cons.mpr (.inr reachesB))
    exact (lower.trans (ih tail inWorld) agree).congr fun reached => Schema.reachedFrom_cons.symm

/-- Two runs that put the same entities, which are consistent, leave the same behind. -/
theorem contents_run_eq (puts others : List (Iteration × EntityValue))
    (consistent : schema.ConsistentAll (puts.map Prod.snd))
    (same : ∀ entity, entity ∈ others.map Prod.snd ↔ entity ∈ puts.map Prod.snd)
    (bound : store < world.stores.length) :
    ((Repository.mk [store] [store]).run schema others world).contents store =
      ((Repository.mk [store] [store]).run schema puts world).contents store := by
  have other := laidOver_run others (consistent.mono fun entity => (same entity).mp) bound
  refine (other.congr fun reached => ?_).unique (laidOver_run puts consistent bound)
  simp only [Schema.ReachedFrom, same]

variable (schema world)

/-- With one store for reading and writing: a put of a consistent entity lays what is reached from
it over what was stored, however maps are iterated; to put it again changes nothing more and reports
the same; and entities that are consistent with each other may be put in either order. -/
theorem consistent_puts (bound : store < world.stores.length) :
    let repository : Repository := ⟨[store], [store]⟩
    let put (order : Iteration) (entity : EntityValue) :=
      ((repository.storing schema order).putEntity entity).run
    (∀ entity, schema.Consistent entity → ∀ order,
      schema.LaidOver (schema.Reaches entity) (world.contents store)
        ((put order entity world).2.contents store)) ∧
    (∀ entity, schema.Consistent entity → ∀ order again,
      let once := put order entity world
      let twice := put again entity once.2
      twice.2.contents store = once.2.contents store ∧ twice.1.Perm once.1) ∧
    ∀ first second, schema.ConsistentAll [first, second] → ∀ order₁ order₂ order₃ order₄,
      (put order₂ second (put order₁ first world).2).2.contents store =
        (put order₄ first (put order₃ second world).2).2.contents store := by
  intro repository put
  refine ⟨fun entity consistent order => laidOver_put consistent bound order, ?_, ?_⟩
  · intro entity consistent order again once twice
    have single : schema.ConsistentAll ([(order, entity)].map Prod.snd) :=
      Schema.consistentAll_singleton.mpr consistent
    refine ⟨?_, ?_⟩
    · exact contents_run_eq [(order, entity)] [(order, entity), (again, entity)] single (by simp)
        bound
    · have first : once.1.Nodup := Storing.nodup_dirty ..
      have second : twice.1.Nodup := Storing.nodup_dirty ..
      refine (List.perm_ext_iff_of_nodup second first).mpr fun reached => ?_
      exact (Storing.mem_dirty (repository.storing schema again) entity reached once.2).trans
        (Storing.mem_dirty (repository.storing schema order) entity reached world).symm
  · intro first second consistent order₁ order₂ order₃ order₄
    have swapped : schema.ConsistentAll ([(order₃, second), (order₄, first)].map Prod.snd) :=
      consistent.mono (by simp)
    exact contents_run_eq [(order₃, second), (order₄, first)] [(order₁, first), (order₂, second)]
      swapped (by simp [or_comm]) bound

end Repository

/-! Polls count votes by voter. The votes are in a hash map. -/
namespace Poll

def voter : EntityType := ⟨[], ⟨"Voter", false⟩⟩

def poll : EntityType := ⟨[], ⟨"Poll", false⟩⟩

def schema : Schema :=
  [⟨voter, [.leaf .inferred, .leaf .inferred], ⟨0, by decide⟩⟩,
    ⟨poll, [.leaf .inferred, .map .hashMap (.entity voter) (.leaf .inferred)], ⟨0, by decide⟩⟩]

def ann : Value := .seq [.int 1, .text "Ann"]

def bob : Value := .seq [.int 2, .text "Bob"]

def pollValue (id : Int) (votes : List (Value × Value)) : Value :=
  .seq [.int id, .seq (votes.map Value.entry)]

/-- Two polls with a voter in common are put over an older one, in either order. The votes of the
first are met as they stand or the other way round. -/
theorem put_polls_in_either_order :
    let repository : Repository := ⟨[0], [0]⟩
    let put (order : Iteration) (entity : EntityValue) :=
      ((repository.storing schema order).putEntity entity).run
    let older : EntityValue := ⟨poll, pollValue 1 [(.seq [.int 2, .text "Bill"], .int 1)]⟩
    let first : EntityValue := ⟨poll, pollValue 1 [(ann, .int 3), (bob, .int 5)]⟩
    let second : EntityValue := ⟨poll, pollValue 2 [(bob, .int 4)]⟩
    let reversed : Iteration := fun _ entry => if entry = .pair ann (.int 3) then 1 else 0
    let world := (put Iteration.sorted older (World.ofCount 1)).2
    schema.LaidOver (schema.Reaches first) (world.contents 0)
        ((put reversed first world).2.contents 0) ∧
      (put reversed first (put Iteration.sorted first world).2).2.contents 0 =
        (put Iteration.sorted first world).2.contents 0 ∧
      (put Iteration.sorted second (put Iteration.sorted first world).2).2.contents 0 =
        (put reversed first (put Iteration.sorted second world).2).2.contents 0 := by
  intro repository put older first second reversed world
  have bound : 0 < world.stores.length := by
    have same : world.stores.length = (World.ofCount 1).stores.length := by
      simp only [world, put, Storing.world_putEntity, World.length_putAll]
    exact same ▸ Nat.zero_lt_one
  obtain ⟨overlay, twice, either⟩ := Repository.consistent_puts schema world bound
  have listed : [first, second].flatMap (schema.entities Iteration.sorted) =
      [first, ⟨voter, ann⟩, ⟨voter, bob⟩, second, ⟨voter, bob⟩] := by cbv
  have consistent : schema.ConsistentAll [first, second] := by
    have agree : ∀ a ∈ [first, ⟨voter, ann⟩, ⟨voter, bob⟩, second, ⟨voter, bob⟩],
        ∀ b ∈ [first, ⟨voter, ann⟩, ⟨voter, bob⟩, second, ⟨voter, bob⟩],
          schema.slot a = schema.slot b → a = b := by decide
    have member : ∀ reached, schema.ReachedFrom [first, second] reached →
        reached ∈ [first, ⟨voter, ann⟩, ⟨voter, bob⟩, second, ⟨voter, bob⟩] := by
      rintro reached ⟨entity, inside, reaches⟩
      rw [← listed]
      exact List.mem_flatMap.mpr ⟨entity, inside, (Schema.mem_entities _).mpr reaches⟩
    exact fun a b reachesA reachesB => agree a (member a reachesA) b (member b reachesB)
  have alone : schema.Consistent first :=
    Schema.consistentAll_singleton.mp (consistent.mono (by simp))
  exact ⟨overlay first alone _, (twice first alone _ _).1, either first second consistent _ _ _ _⟩

end Poll
end EntityGen
