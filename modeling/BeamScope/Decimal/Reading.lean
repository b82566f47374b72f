import BeamScope.Binary64
import BeamScope.Text.Digits

/-!
# Reading decimal numbers

Decimal text to the nearest floating-point number: digits with an optional point and exponent, at
least one digit on one side of the point, or one of the words for infinity and for no number, in
either case of letters. A sign may stand in front.
-/

namespace BeamScope.Decimal

/-- The digits at the start of `cs`, and what follows. -/
def spanDigits (cs : List Char) : List Char × List Char := cs.span Char.isDigit

def natOfDecimal (cs : List Char) : Nat := (Text.natOfDigits? 10 0 cs).getD 0

/-- An exponent up to the end of the text: `e` in either case, a sign, digits. Nothing at all is
the exponent zero. -/
def exponent? (cs : List Char) : Option Int :=
  match cs with
  | [] => some 0
  | e :: cs =>
    if e = 'e' ∨ e = 'E' then
      let (negative, ds) :=
        match cs with
        | '-' :: ds => (true, ds)
        | '+' :: ds => (false, ds)
        | ds => (false, ds)
      if ds.isEmpty || !ds.all Char.isDigit then none
      else some (if negative then -(natOfDecimal ds : Int) else natOfDecimal ds)
    else none

/-- `digits * 10 ^ exponent` as bits. Far outside the range of floating point the answer is
infinity or zero without computing the power. -/
def toBits (negative : Bool) (digits : Nat) (exponent : Int) : UInt64 :=
  let lead : Int := exponent + (Nat.toDigits 10 digits).length
  if digits = 0 ∨ lead < -400 then Binary64.ofRatio negative 0 1
  else if lead > 400 then Binary64.infinity negative
  else if 0 ≤ exponent then Binary64.ofRatio negative (digits * 10 ^ exponent.toNat) 1
  else Binary64.ofRatio negative digits (10 ^ (-exponent).toNat)

def unsigned? (negative : Bool) (cs : List Char) : Option UInt64 :=
  let lower := String.ofList (cs.map Char.toLower)
  if lower == "inf" || lower == "infinity" then some (Binary64.infinity negative)
  else if lower == "nan" then some (Binary64.nan negative)
  else
    let (whole, rest) := spanDigits cs
    let (fraction, rest) :=
      match rest with
      | '.' :: rest => spanDigits rest
      | rest => ([], rest)
    if whole.isEmpty && fraction.isEmpty then none
    else (exponent? rest).map fun e =>
      toBits negative (natOfDecimal (whole ++ fraction)) (e - fraction.length)

def read? (cs : List Char) : Option UInt64 :=
  match cs with
  | '-' :: cs => unsigned? true cs
  | '+' :: cs => unsigned? false cs
  | cs => unsigned? false cs

end BeamScope.Decimal
