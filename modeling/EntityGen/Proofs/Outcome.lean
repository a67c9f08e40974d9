import Mathlib.Data.List.Forall2

/-! Computations that end with an error or with a result, and what their results come from. -/
namespace EntityGen

variable {ε α β : Type} {b : β}

theorem ok_of_bind {first : Except ε α} {next : α → Except ε β} (done : first >>= next = .ok b) :
    ∃ a, first = .ok a ∧ next a = .ok b := by
  cases first with
  | error => cases done
  | ok a => exact ⟨a, rfl, done⟩

theorem error_of_bind {error : ε} {first : Except ε α} {next : α → Except ε β}
    (failed : first >>= next = .error error) :
    first = .error error ∨ ∃ a, first = .ok a ∧ next a = .error error := by
  cases first with
  | error other => exact .inl (congrArg Except.error (Except.error.inj failed))
  | ok a => exact .inr ⟨a, rfl, failed⟩

theorem ok_of_mapError {ε' : Type} {first : Except ε α} {f : ε → ε'} {a : α}
    (done : first.mapError f = .ok a) : first = .ok a := by
  cases first with
  | error => cases done
  | ok b => exact congrArg Except.ok (Except.ok.inj done)

theorem ok_of_toOption {result : Except ε α} {a : α} (found : result.toOption = some a) :
    result = .ok a := by
  cases result with
  | error => cases found
  | ok b => exact congrArg Except.ok (Option.some.inj found)

/-- A list of results has one for each element, in order. -/
theorem forall₂_of_mapM {f : α → Except ε β} {inputs : List α} {results : List β}
    (done : inputs.mapM f = .ok results) :
    List.Forall₂ (fun input result => f input = .ok result) inputs results := by
  induction inputs generalizing results with
  | nil =>
    obtain rfl : [] = results := by simpa [pure, Except.pure] using done
    exact .nil
  | cons input rest ih =>
    rw [List.mapM_cons] at done
    obtain ⟨result, first, done⟩ := ok_of_bind done
    obtain ⟨others, later, done⟩ := ok_of_bind done
    obtain rfl : result :: others = results := by simpa [pure, Except.pure] using done
    exact .cons first (ih later)

/-- Each result is that of an element. -/
theorem mem_of_mapM {f : α → Except ε β} {inputs : List α} {results : List β}
    (done : inputs.mapM f = .ok results) (member : b ∈ results) : ∃ a ∈ inputs, f a = .ok b := by
  have each := forall₂_of_mapM done
  clear done
  induction each with
  | nil => cases member
  | cons first _ ih =>
    rcases List.mem_cons.mp member with rfl | later
    · exact ⟨_, List.mem_cons_self, first⟩
    · obtain ⟨a, inside, same⟩ := ih later
      exact ⟨a, List.mem_cons_of_mem _ inside, same⟩

/-- Each element has its result among the results. -/
theorem exists_mem_of_mapM {f : α → Except ε β} {inputs : List α} {results : List β} {a : α}
    (done : inputs.mapM f = .ok results) (member : a ∈ inputs) : ∃ b ∈ results, f a = .ok b := by
  have each := forall₂_of_mapM done
  clear done
  induction each with
  | nil => cases member
  | cons first _ ih =>
    rcases List.mem_cons.mp member with rfl | later
    · exact ⟨_, List.mem_cons_self, first⟩
    · obtain ⟨b, inside, same⟩ := ih later
      exact ⟨b, List.mem_cons_of_mem _ inside, same⟩

/-- What is known of every outcome is known of every result. -/
theorem forall_of_mapM {f : α → Except ε β} {inputs : List α} {results : List β} {P : β → Prop}
    (done : inputs.mapM f = .ok results)
    (each : ∀ input ∈ inputs, ∀ result, f input = .ok result → P result) :
    ∀ result ∈ results, P result := by
  intro result member
  obtain ⟨input, inside, same⟩ := mem_of_mapM done member
  exact each input inside result same

/-- What is known of each result by its element is known of the list of results. -/
theorem map_of_mapM {γ : Type} {f : α → Except ε β} {g : β → γ} {h : α → γ} {inputs : List α}
    {results : List β} (done : inputs.mapM f = .ok results)
    (same : ∀ input result, f input = .ok result → g result = h input) :
    results.map g = inputs.map h := by
  have each := forall₂_of_mapM done
  clear done
  induction each with
  | nil => rfl
  | cons first _ ih => rw [List.map_cons, List.map_cons, same _ _ first, ih]

section

variable {f : α → Except ε β} {inputs : List α} {results : List β}

theorem exists_mapM_iff :
    (∃ results, inputs.mapM f = .ok results) ↔ ∀ input ∈ inputs, ∃ result, f input = .ok result := by
  induction inputs with
  | nil => exact iff_of_true ⟨[], rfl⟩ nofun
  | cons input rest ih =>
    rw [List.forall_mem_cons, ← ih]
    constructor
    · rintro ⟨results, done⟩
      rw [List.mapM_cons] at done
      obtain ⟨result, first, done⟩ := ok_of_bind done
      obtain ⟨others, later, -⟩ := ok_of_bind done
      exact ⟨⟨result, first⟩, ⟨others, later⟩⟩
    · rintro ⟨⟨result, first⟩, ⟨others, later⟩⟩
      refine ⟨result :: others, ?_⟩
      rw [List.mapM_cons, first, later]
      rfl

theorem exists_error_of_mapM {error : ε} (failed : inputs.mapM f = .error error) :
    ∃ input ∈ inputs, f input = .error error := by
  induction inputs with
  | nil => cases failed
  | cons input rest ih =>
    rw [List.mapM_cons] at failed
    cases first : f input with
    | error other =>
      rw [first] at failed
      obtain rfl := Except.error.inj failed
      exact ⟨input, List.mem_cons_self, first⟩
    | ok result =>
      cases later : rest.mapM f with
      | error other =>
        rw [first, later] at failed
        obtain rfl := Except.error.inj failed
        obtain ⟨input, member, same⟩ := ih later
        exact ⟨input, List.mem_cons_of_mem _ member, same⟩
      | ok others =>
        rw [first, later] at failed
        cases failed

/-- Where it is known which elements have a result, and which one, so it is of the list. -/
theorem mapM_eq_ok_iff {p : α → Prop} {g : α → β} (each : ∀ a b, f a = .ok b ↔ p a ∧ b = g a) :
    inputs.mapM f = .ok results ↔ (∀ input ∈ inputs, p input) ∧ results = inputs.map g := by
  induction inputs generalizing results with
  | nil =>
    refine ⟨fun done => ⟨nofun, (Except.ok.inj done).symm⟩, ?_⟩
    rintro ⟨-, rfl⟩
    rfl
  | cons input rest ih =>
    rw [List.mapM_cons, List.forall_mem_cons]
    constructor
    · intro done
      obtain ⟨result, first, done⟩ := ok_of_bind done
      obtain ⟨others, later, done⟩ := ok_of_bind done
      obtain ⟨here, rfl⟩ := (each _ _).mp first
      obtain ⟨there, rfl⟩ := ih.mp later
      exact ⟨⟨here, there⟩, (Except.ok.inj done).symm⟩
    · rintro ⟨⟨here, there⟩, rfl⟩
      rw [(each _ _).mpr ⟨here, rfl⟩, ih.mpr ⟨there, rfl⟩]
      rfl

end

/-- There is a list of related elements if and only if there is one for each. -/
theorem exists_forall₂_iff {R : α → β → Prop} {as : List α} :
    (∃ bs, List.Forall₂ R as bs) ↔ ∀ a ∈ as, ∃ b, R a b := by
  induction as with
  | nil => exact iff_of_true ⟨[], .nil⟩ nofun
  | cons a rest ih =>
    rw [List.forall_mem_cons, ← ih]
    constructor
    · rintro ⟨_, both⟩
      obtain ⟨b, bs, first, later, rfl⟩ := List.forall₂_cons_left_iff.mp both
      exact ⟨⟨b, first⟩, ⟨bs, later⟩⟩
    · rintro ⟨⟨b, first⟩, ⟨bs, later⟩⟩
      exact ⟨b :: bs, .cons first later⟩

end EntityGen
