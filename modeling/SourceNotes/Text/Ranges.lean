/-
Sets of code points.

The classes of characters that a standard lists are kept as closed ranges of code
points in ascending order.
-/

namespace SourceNotes.Text

/-- Whether a code point lies in one of some closed ranges. -/
def isWithin (ranges : List (Nat × Nat)) (n : Nat) : Bool :=
  ranges.any fun r => r.1 ≤ n && n ≤ r.2

end SourceNotes.Text
