import BeamScope.Text.Ranges

/-!
# Blanks and controls

Which characters count as blank at the ends of a line, and which are control characters. Trimming
takes every blank off an end.
-/

namespace BeamScope.Text

/-- The characters with the Unicode property White_Space. -/
def blankRanges : List (Nat × Nat) := [
    (0x9, 0xd), (0x20, 0x20), (0x85, 0x85), (0xa0, 0xa0), (0x1680, 0x1680), (0x2000, 0x200a),
    (0x2028, 0x2029), (0x202f, 0x202f), (0x205f, 0x205f), (0x3000, 0x3000)]

def isBlank (c : Char) : Bool := inRanges blankRanges c.toNat

/-- Whether `c` is a control character: the two blocks below the blank and after the tilde. -/
def isControl (c : Char) : Bool := c.toNat < 0x20 || (0x7f ≤ c.toNat && c.toNat < 0xa0)

/-- `cs` without what `p` holds of at its end. -/
def dropEndWhile (p : Char → Bool) (cs : List Char) : List Char :=
  (cs.reverse.dropWhile p).reverse

def trimStart (cs : List Char) : List Char := cs.dropWhile isBlank

def trimEnd (cs : List Char) : List Char := dropEndWhile isBlank cs

def trim (cs : List Char) : List Char := trimEnd (trimStart cs)

/-- The maximal runs of characters that are not blank, in order. -/
def words (cs : List Char) : List (List Char) :=
  let (run, runs) := cs.foldr step ([], [])
  if run.isEmpty then runs else run :: runs
where
  /-- One character to the left: the run that it extends or closes, and the runs after it. -/
  step (c : Char) : List Char × List (List Char) → List Char × List (List Char)
    | (run, runs) =>
      if isBlank c then (if run.isEmpty then ([], runs) else ([], run :: runs))
      else (c :: run, runs)

end BeamScope.Text
