import BeamScope.Power

/-!
# Digits

The numerals that messages and listings use: lower-case hexadecimal with its `0x` mark, zero
padded or not, and right-aligned columns.
-/

namespace BeamScope.Text

/-- Hexadecimal digits without a mark, lower case, `0` for zero. -/
def hexDigits (n : Nat) : List Char := Nat.toDigits 16 n

def hex (n : Nat) : String := String.ofList ('0' :: 'x' :: hexDigits n)

/-- `cs` with `fill` in front until it is `width` characters long; longer text is kept whole. -/
def padLeft (fill : Char) (width : Nat) (cs : List Char) : List Char :=
  List.replicate (width - cs.length) fill ++ cs

/-- `cs` with `fill` behind until it is `width` characters long; longer text is kept whole. -/
def padRight (fill : Char) (width : Nat) (cs : List Char) : List Char :=
  cs ++ List.replicate (width - cs.length) fill

def hexByte (b : UInt8) : String :=
  String.ofList ('0' :: 'x' :: padLeft '0' 2 (hexDigits b.toNat))

/-- The number of a digit in `base` (at most 16), letters in either case. -/
def digit? (base : Nat) (c : Char) : Option Nat :=
  let n :=
    if '0' ≤ c ∧ c ≤ '9' then c.toNat - '0'.toNat
    else if 'a' ≤ c ∧ c ≤ 'f' then c.toNat - 'a'.toNat + 10
    else if 'A' ≤ c ∧ c ≤ 'F' then c.toNat - 'A'.toNat + 10
    else 16
  if n < base then some n else none

/-- The value of a run of digits read from the left onto `acc`; `none` if one is no digit. -/
def natOfDigits? (base : Nat) : Nat → List Char → Option Nat
  | acc, [] => some acc
  | acc, c :: cs => (digit? base c).bind fun d => natOfDigits? base (acc * base + d) cs

end BeamScope.Text
