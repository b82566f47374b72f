import BeamScope.Binary64
import BeamScope.Text.Digits

/-!
# Shortest decimal digits

The fewest decimal digits that still name one floating-point number among its neighbours, and how
they are laid out. A number `m * 2 ^ q` owns the interval of reals that round to it, ends included
when `m` is even. For one, two, … seventeen digits the two neighbours of the number on that decimal
grid are tried; the first grid with a hit wins, and of two hits the nearer, a tie going up.
-/

namespace BeamScope.Decimal

/-- A nonzero decimal number: `digits * 10 ^ exponent`. -/
structure Digits where
  digits : Nat
  exponent : Int
  deriving Repr, DecidableEq

/-- A positive number with the interval of reals that round to it, all over one denominator. -/
structure Target where
  value : Nat
  low : Nat
  high : Nat
  den : Nat
  /-- Whether the ends of the interval round to the number too. -/
  closed : Bool
  deriving Repr

/-- The target of `m * 2 ^ q`. Below a power of two the neighbours lie half as far away. -/
def Target.ofBinary (m : Nat) (q : Int) : Target :=
  let below := if m = 2 ^ 52 ∧ Binary64.minExponent < q then 1 else 2
  let (factor, den) := if 2 ≤ q then (2 ^ (q - 2).toNat, 1) else (1, 2 ^ (2 - q).toNat)
  { value := 4 * m * factor
    low := (4 * m - below) * factor
    high := (4 * m + 2) * factor
    den
    closed := m % 2 == 0 }

/-- Whether `d * 10 ^ e` lies in the interval. -/
def Target.owns (t : Target) (d : Nat) (e : Int) : Bool :=
  let (n, den) := if 0 ≤ e then (d * 10 ^ e.toNat, 1) else (d, 10 ^ (-e).toNat)
  let x := n * t.den
  if t.closed then t.low * den ≤ x && x ≤ t.high * den else t.low * den < x && x < t.high * den

def digitCount (n : Nat) : Nat := (Nat.toDigits 10 n).length

/-- The `e` with `10 ^ e ≤ num / den < 10 ^ (e + 1)`. -/
def leadExponent (num den : Nat) : Int :=
  let guess : Int := (digitCount num : Int) - digitCount den
  let reaches (e : Int) : Bool :=
    if 0 ≤ e then den * 10 ^ e.toNat ≤ num else den ≤ num * 10 ^ (-e).toNat
  if reaches guess then guess else guess - 1

/-- The neighbour of the target on the grid of multiples of `10 ^ e` that it owns, the nearer one
if it owns both. -/
def Target.onGrid? (t : Target) (e : Int) : Option Nat :=
  let (n, d) :=
    if 0 ≤ e then (t.value, t.den * 10 ^ e.toNat) else (t.value * 10 ^ (-e).toNat, t.den)
  let lower := n / d
  let upperNearer := 2 * (n % d) ≥ d
  match t.owns lower e, t.owns (lower + 1) e with
  | true, true => some (if upperNearer then lower + 1 else lower)
  | true, false => some lower
  | false, true => some (lower + 1)
  | false, false => none

/-- The first hit on a grid with `count`, `count + 1`, … digits. -/
def Target.search (t : Target) (lead : Int) : (grids count : Nat) → Digits
  | 0, count => ⟨t.value, lead - count⟩
  | grids + 1, count =>
    let e := lead - (count : Int) + 1
    match t.onGrid? e with
    | some d => ⟨d, e⟩
    | none => t.search lead grids (count + 1)

/-- Zeros at the end of the digits moved into the exponent; `fuel` bounds how many. -/
def Digits.normalize (d : Digits) : (fuel : Nat) → Digits
  | 0 => d
  | fuel + 1 =>
    if d.digits ≠ 0 ∧ d.digits % 10 = 0 then normalize ⟨d.digits / 10, d.exponent + 1⟩ fuel else d

/-- The shortest digits of `m * 2 ^ q`, for positive `m`. -/
def shortest (m : Nat) (q : Int) : Digits :=
  let t := Target.ofBinary m q
  (t.search (leadExponent t.value t.den) 17 1).normalize 20

/-- How numbers are written: positionally between two powers of ten, with an exponent outside. -/
structure Layout where
  /-- The least exponent of the leading digit that is written positionally. -/
  least : Int
  /-- The first exponent of the leading digit that is not. -/
  limit : Int
  infinity : String
  nan : String

/-- Positional digits with the point `point` places behind the first; at least one digit on either
side of it. -/
def positional (digits : List Char) (point : Int) : List Char :=
  if point ≤ 0 then ['0', '.'] ++ List.replicate (-point).toNat '0' ++ digits
  else
    let k := point.toNat
    if digits.length ≤ k then digits ++ List.replicate (k - digits.length) '0' ++ ['.', '0']
    else digits.take k ++ '.' :: digits.drop k

/-- Digits with a point behind the first, if there are more, and the power of ten. -/
def scientific (digits : List Char) (lead : Int) : List Char :=
  let mantissa :=
    match digits with
    | [] => ['0']
    | [d] => [d]
    | d :: ds => d :: '.' :: ds
  mantissa ++ 'e' :: (toString lead).toList

def Layout.render (l : Layout) (bits : UInt64) : String :=
  match Binary64.parts bits with
  | .nan => l.nan
  | .infinite negative => if negative then "-" ++ l.infinity else l.infinity
  | .finite negative m q =>
    let body :=
      if m = 0 then ['0', '.', '0']
      else
        let d := shortest m q
        let digits := Nat.toDigits 10 d.digits
        let lead := d.exponent + digits.length - 1
        if l.least ≤ lead ∧ lead < l.limit then positional digits (lead + 1)
        else scientific digits lead
    String.ofList (if negative then '-' :: body else body)

end BeamScope.Decimal
