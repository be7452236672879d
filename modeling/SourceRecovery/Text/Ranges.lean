/-!
# Ranges of characters

A property of characters as a table of ranges of code points.

* `inRanges` asks whether a character has the property.
* `separated` asks whether a table is in order, with a gap between each two ranges: such a table
  says everything once.
-/

namespace SourceRecovery.Text

/-- Whether a character lies in one of the ranges, their ends included. -/
def inRanges (table : List (Nat × Nat)) (c : Char) : Bool :=
  table.any fun r => r.1 ≤ c.toNat && c.toNat ≤ r.2

/-- Whether every range has its ends in order and ends before the next one begins. -/
def separated : List (Nat × Nat) → Bool
  | [] => true
  | [r] => r.1 ≤ r.2
  | r :: s :: rest => r.1 ≤ r.2 && r.2 + 1 < s.1 && separated (s :: rest)

end SourceRecovery.Text
