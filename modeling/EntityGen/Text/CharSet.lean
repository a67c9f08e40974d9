/-! Sets of characters and tables from characters to characters, given by ranges of code points
in ascending order. -/
namespace EntityGen.Text

/-- Closed ranges of code points. -/
abbrev CharSet := Array (Nat × Nat)

def CharSet.contains (set : CharSet) (c : Char) : Bool :=
  set.any fun (first, last) => first ≤ c.toNat && c.toNat ≤ last

/-- Ranges `(first, last, step)` of code points, every `step`-th one counted from the first. -/
abbrev SteppedSet := Array (Nat × Nat × Nat)

def SteppedSet.contains (set : SteppedSet) (c : Char) : Bool :=
  set.any fun (first, last, step) =>
    first ≤ c.toNat && c.toNat ≤ last && (c.toNat - first) % step == 0

/-- Ranges `(first, last, step, target)` of characters that move by one distance, which takes the
first of them to the target. -/
abbrev ShiftTable := Array (Nat × Nat × Nat × Nat)

/-- A character outside of the table stays where it is. -/
def ShiftTable.apply (table : ShiftTable) (c : Char) : Char :=
  match table.find? fun (first, last, step, _) =>
      first ≤ c.toNat && c.toNat ≤ last && (c.toNat - first) % step == 0 with
  | some (first, _, _, target) => Char.ofNat (c.toNat - first + target)
  | none => c

end EntityGen.Text
