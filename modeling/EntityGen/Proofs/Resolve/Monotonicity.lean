import EntityGen.Proofs.Resolve.PlainIds

/-! Resolution is monotone in the table. With more names the resolved form of a type grows, and it
holds and mentions an entity if it did before. So an id that would be refused by the names of accepted
specs is refused by the names of all of them. -/
namespace EntityGen

/-- What becomes of the resolved form of a type by the names of another table. -/
structure EntityTable.Extends (larger table : EntityTable) (ty : Ty) : Prop where
  /-- Leaves that are names of the other table become entities, and all else stays in its place. -/
  grows : table.Grows larger (table.resolve ty) (larger.resolve ty)
  holds : (table.resolve ty).holdsEntities = true → (larger.resolve ty).holdsEntities = true
  mentions : (table.resolve ty).mentionsEntity = true → (larger.resolve ty).mentionsEntity = true

namespace Resolution

variable {specs : List Spec} {spec : Spec}

/-- A spec with an id that mentions a candidate has the error that says so. -/
theorem idError_mem_errors (member : spec ∈ specs)
    (mentions : ((candidates specs).resolve spec.idField.ty).mentionsEntity = true) :
    spec.idError ∈ (ofSpecs specs).errors := by
  obtain ⟨i, entry⟩ := List.mem_iff_getElem?.mp member
  exact mem_errors_iff.mpr ⟨i, spec, entry, verdict_eq_idError mentions⟩

/-- More names take no entity away, and ids are checked by all the names that there are in the end. -/
theorem monotone_in_names :
    (∀ table larger : EntityTable, table.Within larger → ∀ ty, larger.Extends table ty) ∧
      ∀ specs : List Spec, (ofSpecs specs).table.Within (candidates specs) ∧ ∀ spec ∈ specs,
        ((ofSpecs specs).table.resolve spec.idField.ty).mentionsEntity = true →
          ((candidates specs).resolve spec.idField.ty).mentionsEntity = true ∧
            spec.idError ∈ (ofSpecs specs).errors := by
  constructor
  · intro table larger within ty
    have grows := EntityTable.grows_resolve within ty
    exact ⟨grows, EntityTable.holdsEntities_of_grows _ grows,
      EntityTable.mentionsEntity_of_grows _ grows⟩
  · intro specs
    have within : (ofSpecs specs).table.Within (candidates specs) := within_candidates specs
    refine ⟨within, fun spec member mentions => ?_⟩
    have refused := EntityTable.mentionsEntity_mono within spec.idField.ty mentions
    exact ⟨refused, idError_mem_errors member refused⟩

end Resolution

/-! A post that is known by a number, a draft that is known by its post, and a comment that is known
by a draft. -/
namespace Comments

def known (name type : String) (id : Ty) : Spec :=
  { Users.declared [] id [] with name, typeName := ⟨type, false⟩ }

def draft : Spec := known "draft" "Draft" (.named ⟨"Post", false⟩)

def comment : Spec := known "comment" "Comment" (.named ⟨"Draft", false⟩)

def comments : List Spec := [known "post" "Post" Users.number, draft, comment]

def users : EntityTable := ⟨[⟨[], ⟨"User", false⟩⟩]⟩

def legacyUsers : EntityTable :=
  ⟨[⟨[⟨"legacy", false⟩], ⟨"User", false⟩⟩, ⟨[], ⟨"Vec", false⟩⟩]⟩

def applied (name : String) (args : List Ty) : Ty :=
  .path false [⟨⟨name, false⟩, .angle false (args.map .ty) false⟩]

def listsByVec : Ty :=
  applied "HashMap" [applied "Option" [.named ⟨"Vec", false⟩], applied "Vec" [Users.user]]

/-- The list stays one. The draft is refused by both checks, and the comment only by the one that is
made, since no draft is accepted. -/
theorem comments_checked :
    users.Within legacyUsers ∧ legacyUsers.Extends users listsByVec ∧
      users.resolve listsByVec = .map .hashMap
        (.other ⟨false, [.bare ⟨"Option", false⟩]⟩ [.leaf (.named ⟨"Vec", false⟩)])
        (.list .vec (.entity ⟨[], ⟨"User", false⟩⟩)) ∧
      legacyUsers.resolve listsByVec = .map .hashMap
        (.other ⟨false, [.bare ⟨"Option", false⟩]⟩ [.entity ⟨[], ⟨"Vec", false⟩⟩])
        (.list .vec (.entity ⟨[⟨"legacy", false⟩], ⟨"User", false⟩⟩)) ∧
      draft ∈ comments ∧
      ((Resolution.ofSpecs comments).table.resolve draft.idField.ty).mentionsEntity = true ∧
      draft.idError ∈ (Resolution.ofSpecs comments).errors ∧
      ((Resolution.ofSpecs comments).table.resolve comment.idField.ty).mentionsEntity = false ∧
      ((Resolution.candidates comments).resolve comment.idField.ty).mentionsEntity = true := by
  obtain ⟨trees, checks⟩ := Resolution.monotone_in_names
  have within : users.Within legacyUsers := by
    intro name taken
    obtain ⟨entity, member, rfl⟩ := EntityTable.contains_iff.mp taken
    rw [users, List.mem_singleton] at member
    subst member
    rfl
  have member : draft ∈ comments := by simp [comments]
  have mentions :
      ((Resolution.ofSpecs comments).table.resolve draft.idField.ty).mentionsEntity = true := by
    decide
  obtain ⟨-, error⟩ := (checks comments).2 draft member mentions
  exact ⟨within, trees users legacyUsers within listsByVec, rfl, rfl, member, mentions, error,
    by decide, by decide⟩

end Comments
end EntityGen
