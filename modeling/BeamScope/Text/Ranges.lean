/-!
# Ranges of code points

Look-up in a list of inclusive ranges, the form in which the character classes of this library are
stored.
-/

namespace BeamScope.Text

/-- Whether `n` lies in one of the ranges, both ends included. -/
def inRanges (ranges : List (Nat × Nat)) (n : Nat) : Bool :=
  ranges.any fun r => r.1 ≤ n && n ≤ r.2

end BeamScope.Text
