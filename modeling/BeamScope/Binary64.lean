import BeamScope.Power

/-!
# Binary floating point in 64 bits

A finite number is a sign, a significand and a power of two. This module takes the 64 bits apart
and rounds an exact fraction to the nearest representable number, halves to the even significand.
Everything is done on natural numbers; no machine arithmetic is involved.
-/

namespace BeamScope.Binary64

inductive Parts where
  | nan
  | infinite (negative : Bool)
  /-- `significand * 2 ^ exponent`, with the sign in front. -/
  | finite (negative : Bool) (significand : Nat) (exponent : Int)
  deriving Repr, DecidableEq

/-- The least exponent: that of the smallest numbers. -/
def minExponent : Int := -1074

def parts (bits : UInt64) : Parts :=
  let n := bits.toNat
  let negative := n / 2 ^ 63 == 1
  let field : Nat := n / 2 ^ 52 % 2048
  let fraction := n % 2 ^ 52
  if field = 2047 then (if fraction = 0 then .infinite negative else .nan)
  else if field = 0 then .finite negative fraction minExponent
  else .finite negative (fraction + 2 ^ 52) ((field : Int) - 1075)

def signBit (negative : Bool) : Nat := if negative then 2 ^ 63 else 0

def infinity (negative : Bool) : UInt64 := UInt64.ofNat (signBit negative + 2047 * 2 ^ 52)

/-- The plain number that is none. -/
def nan (negative : Bool) : UInt64 := UInt64.ofNat (signBit negative + 2047 * 2 ^ 52 + 2 ^ 51)

/-- `num / den` rounded to a whole number, halves to the even one. -/
def roundHalfEven (num den : Nat) : Nat :=
  let q := num / den
  let r := num % den
  if 2 * r < den then q else if 2 * r > den then q + 1 else q + q % 2

/-- The power of two `2 ^ e` as a fraction. -/
def scale (num den : Nat) (e : Int) : Nat × Nat :=
  if 0 ≤ e then (num, den * 2 ^ e.toNat) else (num * 2 ^ (-e).toNat, den)

def bitLength (n : Nat) : Nat := if n = 0 then 0 else n.log2 + 1

/-- The bits of the number nearest to `num / den`. The significand gets 53 binary digits, fewer
at the least exponent; one that rounds up to 54 digits carries into the exponent field by itself.
The first guess of the exponent leaves 53 or 54 digits. -/
def ofRatio (negative : Bool) (num den : Nat) : UInt64 :=
  if num = 0 then UInt64.ofNat (signBit negative)
  else
    let guess : Int := (bitLength num : Int) - bitLength den - 53
    let (n₀, d₀) := scale num den guess
    let e := max (if n₀ < 2 ^ 53 * d₀ then guess else guess + 1) minExponent
    let (n, d) := scale num den e
    let m := roundHalfEven n d
    let magnitude := (e - minExponent).toNat * 2 ^ 52 + m
    if magnitude ≥ 2047 * 2 ^ 52 then infinity negative
    else UInt64.ofNat (signBit negative + magnitude)

/-- The bits of the number nearest to `significand * 2 ^ exponent * factor`. -/
def mulNat (bits : UInt64) (factor : Nat) : UInt64 :=
  match parts bits with
  | .finite negative m e =>
    if 0 ≤ e then ofRatio negative (m * factor * 2 ^ e.toNat) 1
    else ofRatio negative (m * factor) (2 ^ (-e).toNat)
  | _ => bits

end BeamScope.Binary64
