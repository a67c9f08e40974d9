import EntityGen.Grammar.Ty
import Mathlib.Logic.Relation

/-! The forms that hide what a type is. None is found in a type if and only if none stands in it, at
any depth. -/
namespace EntityGen

def Ty.form? : Ty → Option Hidden
  | .inferred => some .inferred
  | .implTrait _ => some .implTrait
  | .invocation _ => some .invocation
  | .path .. | .paren _ | .group _ | .composite _ => none

def Piece.type? : Piece → Option Ty
  | .token _ => none
  | .ty inner => some inner

def Arg.parts : Arg → List Ty
  | .lifetime _ => []
  | .ty inner => [inner]
  | .other pieces => pieces.filterMap Piece.type?

def Args.parts : Args → List Ty
  | .none => []
  | .angle _ args _ => args.flatMap Arg.parts

def Ty.parts : Ty → List Ty
  | .path _ segments => segments.flatMap fun segment => segment.args.parts
  | .paren inner | .group inner => [inner]
  | .inferred | .invocation _ => []
  | .implTrait pieces | .composite pieces => pieces.filterMap Piece.type?

/-- The one type stands in the other, at any depth. -/
abbrev Ty.StandsIn : Ty → Ty → Prop := Relation.ReflTransGen fun part whole => part ∈ whole.parts

theorem Piece.hiddenIn?_eq_none {pieces : List Piece} :
    hiddenIn? pieces = none ↔ ∀ part ∈ pieces.filterMap type?, part.hidden? = none := by
  induction pieces with
  | nil => simp [hiddenIn?]
  | cons piece rest ih => cases piece <;> simp [hiddenIn?, hidden?, type?, ih]

theorem Arg.hidden?_eq_none {arg : Arg} :
    arg.hidden? = none ↔ ∀ part ∈ arg.parts, part.hidden? = none := by
  cases arg with
  | lifetime => simp [hidden?, parts]
  | ty => simp [hidden?, parts]
  | other => exact Piece.hiddenIn?_eq_none

theorem Arg.hiddenIn?_eq_none {args : List Arg} :
    hiddenIn? args = none ↔ ∀ part ∈ args.flatMap parts, part.hidden? = none := by
  induction args with
  | nil => simp [hiddenIn?]
  | cons arg rest ih =>
    rw [List.flatMap_cons, List.forall_mem_append, ← ih, ← hidden?_eq_none]
    simp [hiddenIn?]

theorem Segment.hidden?_eq_none {segment : Segment} :
    segment.hidden? = none ↔ ∀ part ∈ segment.args.parts, part.hidden? = none := by
  obtain ⟨name, args⟩ := segment
  cases args with
  | none => simp [hidden?, Args.hidden?, Segment.args, Args.parts]
  | angle => exact Arg.hiddenIn?_eq_none

theorem Segment.hiddenIn?_eq_none {segments : List Segment} :
    hiddenIn? segments = none ↔
      ∀ part ∈ segments.flatMap fun segment => segment.args.parts, part.hidden? = none := by
  induction segments with
  | nil => simp [hiddenIn?]
  | cons segment rest ih =>
    rw [List.flatMap_cons, List.forall_mem_append, ← ih, ← hidden?_eq_none]
    simp [hiddenIn?]

namespace Ty

theorem hidden?_eq_none_step {ty : Ty} :
    ty.hidden? = none ↔ ty.form? = none ∧ ∀ part ∈ ty.parts, part.hidden? = none := by
  cases ty <;> simp [hidden?, form?, parts, Segment.hiddenIn?_eq_none, Piece.hiddenIn?_eq_none]

theorem sizeOf_lt_of_mem_parts {part ty : Ty} (member : part ∈ ty.parts) :
    sizeOf part < sizeOf ty := by
  have ofPieces {pieces : List Piece} (member : part ∈ pieces.filterMap Piece.type?) :
      sizeOf part < sizeOf pieces := by
    obtain ⟨piece, inside, same⟩ := List.mem_filterMap.mp member
    have smaller := List.sizeOf_lt_of_mem inside
    cases piece with
    | token => cases same
    | ty =>
      cases same
      rw [Piece.ty.sizeOf_spec] at smaller
      omega
  cases ty with
  | path leading segments =>
    obtain ⟨⟨name, args⟩, segment, inside⟩ := List.mem_flatMap.mp member
    have first := List.sizeOf_lt_of_mem segment
    cases args with
    | none => cases inside
    | angle turbofish args trailing =>
      obtain ⟨arg, inside, inner⟩ := List.mem_flatMap.mp inside
      have second := List.sizeOf_lt_of_mem inside
      have third : sizeOf part < sizeOf arg := by
        cases arg with
        | lifetime => cases inner
        | ty =>
          obtain rfl := List.mem_singleton.mp inner
          simp
        | other => 
          have := ofPieces inner
          simp; omega
      simp at first ⊢
      omega
  | paren | group =>
    obtain rfl := List.mem_singleton.mp member
    simp
  | inferred | invocation => cases member
  | implTrait | composite =>
    have := ofPieces member
    simp; omega

/-- No hidden form is found in a type if and only if none stands in it, at any depth. -/
theorem hidden?_eq_none {ty : Ty} :
    ty.hidden? = none ↔ ∀ part : Ty, part.StandsIn ty → part.form? = none := by
  constructor
  · intro free part stands
    have inside : part.hidden? = none := by
      induction stands using Relation.ReflTransGen.head_induction_on with
      | refl => exact free
      | head member _ ih => exact (hidden?_eq_none_step.mp ih).2 _ member
    exact (hidden?_eq_none_step.mp inside).1
  · intro free
    refine hidden?_eq_none_step.mpr ⟨free ty .refl, fun part member => ?_⟩
    have smaller := sizeOf_lt_of_mem_parts member
    exact hidden?_eq_none.mpr fun inner stands => free inner (stands.tail member)
termination_by sizeOf ty

end Ty
end EntityGen
