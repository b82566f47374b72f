import BeamScope.Proofs.Numerals
import BeamScope.Proofs.Positional.Compact
import BeamScope.Proofs.TermRoundTrip
import Mathlib.Algebra.BigOperators.Fin

/-!
# Integers of any length

What a program with numbers of fixed width has to do for an integer that comes as a string of
digits. It folds the digits up in 128 bits, and if the result does not fit, or not in 64 bits, it
writes the number out: limbs in base one billion, of 32 bits each, are multiplied by 256 digit after
digit, with intermediate results of 64 bits, and put side by side.

After each digit the limbs are the digits, in their base, of what has been read
(`pushDigit_limbsOf`), so that a limb never reaches its base, a carry is below 256, and no limb is
too many.
-/

namespace BeamScope.Positional

open Bytes

/-! ### Limbs -/

/-- A product of 64 bits. -/
def mul (a b : Nat) : Checked Nat := if a * b < 2 ^ 64 then .ok (a * b) else .error .panic

/-- A number that has to fit in 32 bits. -/
def narrow (n : Nat) : Checked Nat := if n < 2 ^ 32 then .ok n else .error .panic

def limbBase : Nat := 1000000000

/-- The limbs, least significant first, times 256 and with `carry` added; and what is carried out of
the last one. -/
def carryUp : (limbs : List Nat) → (carry : Nat) → Checked (List Nat × Nat)
  | [], carry => .ok ([], carry)
  | limb :: limbs, carry => do
    let v ← add (← mul limb 256) carry
    let low ← narrow (v % limbBase)
    let (limbs, carry) ← carryUp limbs (v / limbBase)
    return (low :: limbs, carry)

/-- The limbs that a carry adds. -/
def spill (carry : Nat) : Checked (List Nat) :=
  if carry = 0 then .ok []
  else do
    let low ← narrow (carry % limbBase)
    let limbs ← spill (carry / limbBase)
    return low :: limbs
termination_by carry
decreasing_by exact Nat.div_lt_self (by omega) (by decide)

def pushDigit (limbs : List Nat) (d : UInt8) : Checked (List Nat) := do
  let (limbs, carry) ← carryUp limbs d.toNat
  return limbs ++ (← spill carry)

/-- The limbs of a number whose digits in base 256 are given, least significant first. -/
def limbs (digits : Bytes) : Checked (List Nat) := digits.reverse.foldlM pushDigit [0]

/-- The limbs, most significant first, side by side; all but the first with their zeros. -/
def limbText : List Nat → List Char
  | [] => []
  | top :: limbs =>
    Nat.toDigits 10 top ++ limbs.flatMap fun limb => Text.padLeft '0' 9 (Nat.toDigits 10 limb)

def decimal (digits : Bytes) : Checked String := do
  return String.ofList (limbText (← limbs digits).reverse)

/-! ### Terms -/

/-- A result of 128 bits with sign, for a caller who looks at it. -/
def wide? (v : Int) : Option Int := if -(2 ^ 127) ≤ v ∧ v < 2 ^ 127 then some v else none

def foldDigit? (acc : Int) (d : UInt8) : Option Int := do
  let v ← wide? (acc * 256)
  wide? (v + d.toNat)

/-- The digits folded up in 128 bits. -/
def folded? (digits : Bytes) : Option Int := digits.reverse.foldlM foldDigit? 0

/-- A change of sign in 128 bits. -/
def negated (v : Int) : Checked Int :=
  match wide? (-v) with
  | some v => .ok v
  | none => .error .panic

/-- The number in 64 bits, if it has as few. -/
def small? (negative : Bool) (digits : Bytes) : Checked (Option Int) :=
  match folded? digits with
  | none => .ok none
  | some m => do
    let v ← if negative then negated m else .ok m
    return if isInt64 v then some v else none

def bigInteger (negative : Bool) (digits : Bytes) : Checked Term := do
  match ← small? negative digits with
  | some v => return .integer v
  | none =>
    let text ← decimal digits
    return .other (if negative then "-" ++ text else text)

/-! ### The limbs of a number -/

/-- The digits of `m` in the base of the limbs; one of them for zero. -/
def limbsOf (m : Nat) : List Nat := if m = 0 then [0] else Nat.digits limbBase m

theorem limbsOf_zero : limbsOf 0 = [0] := rfl

theorem limbsOf_eq_digits {m : Nat} (h : 0 < m) : limbsOf m = Nat.digits limbBase m :=
  if_neg (by omega)

theorem limbsOf_pos {m : Nat} (h : 0 < m) :
    limbsOf m = m % limbBase :: Nat.digits limbBase (m / limbBase) := by
  rw [limbsOf_eq_digits h, Nat.digits_def' (by decide) h]

theorem narrow_mod (n : Nat) : narrow (n % limbBase) = .ok (n % limbBase) :=
  if_pos ((Nat.mod_lt n (by decide)).trans (by decide))

theorem spill_eq (carry : Nat) : spill carry = .ok (Nat.digits limbBase carry) := by
  induction carry using Nat.strongRecOn with
  | ind carry ih =>
    rw [spill]
    by_cases hzero : carry = 0
    · rw [if_pos hzero, hzero, Nat.digits_zero]
    · have hpos : 0 < carry := Nat.pos_of_ne_zero hzero
      have hless : carry / limbBase < carry := Nat.div_lt_self hpos (by decide)
      rw [if_neg hzero, narrow_mod, checked_ok_bind, ih _ hless, checked_ok_bind,
        Nat.digits_def' (by decide) hpos]
      rfl

/-- One limb: with a carry below 256 nothing leaves its width, and the next carry is below 256. -/
theorem carryUp_cons {limb carry : Nat} (hlimb : limb < limbBase) (hcarry : carry < 256)
    (limbs : List Nat) :
    carryUp (limb :: limbs) carry = (do
      let (limbs, out) ← carryUp limbs ((limb * 256 + carry) / limbBase)
      return ((limb * 256 + carry) % limbBase :: limbs, out)) ∧
    (limb * 256 + carry) / limbBase < 256 := by
  unfold limbBase at hlimb
  have hmul : mul limb 256 = .ok (limb * 256) := if_pos (by omega)
  have hadd : add (limb * 256) carry = .ok (limb * 256 + carry) := add_eq_ok (by omega)
  constructor
  · rw [carryUp, hmul, checked_ok_bind, hadd, checked_ok_bind, narrow_mod]
    rfl
  · unfold limbBase
    omega

/-- What the limbs of a number are when a digit is put behind it. -/
theorem limb_split (m carry : Nat) :
    (256 * m + carry) % limbBase = (m % limbBase * 256 + carry) % limbBase ∧
      (256 * m + carry) / limbBase =
        256 * (m / limbBase) + (m % limbBase * 256 + carry) / limbBase := by
  unfold limbBase
  omega

theorem carryUp_digits (m : Nat) {carry : Nat} (hcarry : carry < 256) :
    ∃ low out, carryUp (Nat.digits limbBase m) carry = .ok (low, out) ∧
      low ++ Nat.digits limbBase out = Nat.digits limbBase (256 * m + carry) := by
  induction m using Nat.strongRecOn generalizing carry with
  | ind m ih =>
    rcases Nat.eq_zero_or_pos m with rfl | hpos
    · refine ⟨[], carry, ?_, ?_⟩
      · rw [Nat.digits_zero, carryUp]
      · rw [List.nil_append, Nat.mul_zero, Nat.zero_add]
    · have hmod : m % limbBase < limbBase := Nat.mod_lt m (by decide)
      have hless : m / limbBase < m := Nat.div_lt_self hpos (by decide)
      obtain ⟨hstep, hnext⟩ := carryUp_cons hmod hcarry (Nat.digits limbBase (m / limbBase))
      obtain ⟨low, out, hup, hdigits⟩ := ih (m / limbBase) hless hnext
      obtain ⟨hlow, hhigh⟩ := limb_split m carry
      refine ⟨(m % limbBase * 256 + carry) % limbBase :: low, out, ?_, ?_⟩
      · rw [Nat.digits_def' (by decide) hpos, hstep, hup]
        rfl
      · rw [Nat.digits_def' (by decide) (by omega : 0 < 256 * m + carry), hlow, hhigh, ← hdigits,
          List.cons_append]

/-- A step: the limbs of a number become those of the number with one more digit. -/
theorem pushDigit_limbsOf (m : Nat) (d : UInt8) :
    pushDigit (limbsOf m) d = .ok (limbsOf (256 * m + d.toNat)) := by
  have hd : d.toNat < 256 := d.toNat_lt
  rcases Nat.eq_zero_or_pos m with rfl | hpos
  · -- The one limb of zero is not among its digits; it takes the first digit in place.
    have hstep := (carryUp_cons (show 0 < limbBase by decide) hd []).1
    have hbelow : d.toNat < limbBase := hd.trans (by decide)
    rw [Nat.zero_mul, Nat.zero_add, Nat.mod_eq_of_lt hbelow, Nat.div_eq_of_lt hbelow] at hstep
    have hlimbs : limbsOf d.toNat = [d.toNat] := by
      rcases Nat.eq_zero_or_pos d.toNat with hzero | hpos
      · rw [hzero, limbsOf_zero]
      · rw [limbsOf_pos hpos, Nat.mod_eq_of_lt hbelow, Nat.div_eq_of_lt hbelow, Nat.digits_zero]
    rw [pushDigit, limbsOf_zero, hstep, Nat.mul_zero, Nat.zero_add, hlimbs]
    simp only [carryUp, checked_ok_bind, pure_eq_ok, spill_eq, Nat.digits_zero, List.append_nil]
  · obtain ⟨low, out, hup, hdigits⟩ := carryUp_digits m hd
    have hnext : limbsOf (256 * m + d.toNat) = low ++ Nat.digits limbBase out := by
      rw [hdigits, limbsOf_eq_digits (by omega)]
    simp only [pushDigit, limbsOf_eq_digits hpos, hup, hnext, checked_ok_bind, spill_eq, pure_eq_ok]

/-- A run: the limbs of all the digits are those of their number. -/
theorem limbs_eq (digits : Bytes) : limbs digits = .ok (limbsOf (toNatLE digits)) := by
  induction digits with
  | nil => rfl
  | cons d digits ih =>
    rw [limbs] at ih ⊢
    rw [List.reverse_cons, List.foldlM_append, ih, checked_ok_bind, toNatLE, Nat.add_comm]
    exact (bind_pure _).trans (pushDigit_limbsOf (toNatLE digits) d)

/-! ### The text of a number -/

theorem limbText_append {limbs : List Nat} (h : limbs ≠ []) (limb : Nat) :
    limbText (limbs ++ [limb]) =
      limbText limbs ++ Text.padLeft '0' 9 (Nat.toDigits 10 limb) := by
  cases limbs with
  | nil => exact absurd rfl h
  | cons top limbs =>
    simp only [List.cons_append, limbText, List.flatMap_append, List.flatMap_singleton,
      List.append_assoc]

theorem limbText_limbsOf (m : Nat) : limbText (limbsOf m).reverse = Nat.toDigits 10 m := by
  induction m using Nat.strongRecOn with
  | ind m ih =>
    rcases Nat.eq_zero_or_pos m with rfl | hpos
    · rfl
    · rw [limbsOf_pos hpos, List.reverse_cons]
      rcases Nat.eq_zero_or_pos (m / limbBase) with hzero | hhigh
      · have hbelow : m < limbBase := (Nat.div_eq_zero_iff_lt (by decide)).mp hzero
        rw [hzero, Nat.digits_zero, Nat.mod_eq_of_lt hbelow]
        exact List.append_nil _
      · have hless : m / limbBase < m := Nat.div_lt_self hpos (by decide)
        have hne : (limbsOf (m / limbBase)).reverse ≠ [] := by
          rw [limbsOf_pos hhigh]
          simp
        have hmod : m % limbBase < 10 ^ (8 + 1) := Nat.mod_lt m (by decide)
        rw [← limbsOf_eq_digits hhigh, limbText_append hne, ih _ hless,
          Text.toDigits_append_padLeft hhigh hmod]
        exact congrArg (Nat.toDigits 10) (Nat.div_add_mod' m limbBase)

theorem decimal_eq (digits : Bytes) :
    decimal digits = .ok (toString (toNatLE digits : Int)) := by
  have htext : String.ofList (Nat.toDigits 10 (toNatLE digits)) =
      toString (toNatLE digits : Int) := by
    apply String.toList_injective
    rw [String.toList_ofList, Text.toList_toString, if_neg (by omega)]
    rfl
  rw [decimal, limbs_eq, checked_ok_bind, limbText_limbsOf, htext]
  rfl

/-! ### The term of a number -/

theorem wide?_eq_some {v : Int} (h : -(2 ^ 127) ≤ v ∧ v < 2 ^ 127) : wide? v = some v := if_pos h

theorem wide?_eq_none {v : Int} (h : 2 ^ 127 ≤ v) : wide? v = none := if_neg (by omega)

theorem foldDigit?_eq_some {m : Nat} {d : UInt8} (h : 256 * m + d.toNat < 2 ^ 127) :
    foldDigit? m d = some ((256 * m + d.toNat : Nat) : Int) := by
  have hmul : wide? ((m : Int) * 256) = some ((m : Int) * 256) := wide?_eq_some (by omega)
  have hadd : wide? ((m : Int) * 256 + d.toNat) = some ((m : Int) * 256 + d.toNat) :=
    wide?_eq_some (by omega)
  rw [foldDigit?, hmul, Option.bind_eq_bind, Option.bind_some, hadd]
  exact congrArg some (by omega)

theorem foldDigit?_eq_none {m : Nat} {d : UInt8} (h : 2 ^ 127 ≤ 256 * m + d.toNat) :
    foldDigit? m d = none := by
  rw [foldDigit?]
  by_cases hmul : (m : Int) * 256 < 2 ^ 127
  · rw [wide?_eq_some (by omega), Option.bind_eq_bind, Option.bind_some]
    exact wide?_eq_none (by omega)
  · rw [wide?_eq_none (by omega), Option.bind_eq_bind, Option.bind_none]

theorem folded?_eq (digits : Bytes) : folded? digits =
    if toNatLE digits < 2 ^ 127 then some (toNatLE digits : Int) else none := by
  induction digits with
  | nil => rfl
  | cons d digits ih =>
    have hstep : folded? (d :: digits) = (folded? digits).bind fun acc => foldDigit? acc d := by
      rw [folded?, List.reverse_cons, List.foldlM_append]
      exact congrArg _ (funext fun acc => bind_pure _)
    rw [hstep, ih, toNatLE, Nat.add_comm]
    by_cases hfits : toNatLE digits < 2 ^ 127
    · rw [if_pos hfits, Option.bind_some]
      by_cases hnext : 256 * toNatLE digits + d.toNat < 2 ^ 127
      · rw [if_pos hnext, foldDigit?_eq_some hnext]
      · rw [if_neg hnext, foldDigit?_eq_none (by omega)]
    · rw [if_neg hfits, if_neg (by omega), Option.bind_none]

section Sign

variable {negative : Bool} {digits : Bytes} {v : Int}
  (hv : v = if negative then -(toNatLE digits : Int) else toNatLE digits)

include hv

theorem small?_eq :
    small? negative digits = .ok (if isInt64 v then some v else none) := by
  unfold small?
  rw [folded?_eq]
  by_cases hfits : toNatLE digits < 2 ^ 127
  · have hneg : negated (toNatLE digits) = .ok (-(toNatLE digits : Int)) := by
      rw [negated, wide?_eq_some (by omega)]
    rw [if_pos hfits]
    cases negative with
    | false =>
      subst hv
      rfl
    | true =>
      subst hv
      simp only [if_true, hneg, checked_ok_bind, pure_eq_ok]
  · -- Too large for 128 bits, and so for 64.
    have hlarge : ¬isInt64 v = true := by
      rw [Compact.isInt64_iff]
      cases negative <;> simp only [if_true, Bool.false_eq_true, if_false] at hv <;> omega
    rw [if_neg hfits, if_neg hlarge]

theorem toString_signed (h : ¬isInt64 v = true) :
    (if negative then "-" ++ toString (toNatLE digits : Int) else toString (toNatLE digits : Int)) =
      toString v := by
  cases negative with
  | false => exact congrArg toString hv.symm
  | true =>
    replace hv : v = -(toNatLE digits : Int) := hv
    have hneg : v < 0 := by
      rw [Compact.isInt64_iff] at h
      omega
    have habs : v.natAbs = toNatLE digits := by omega
    apply String.toList_injective
    rw [if_pos rfl, String.toList_append, Text.toList_toString, Text.toList_toString,
      if_neg (by omega), if_pos hneg, habs]
    rfl

end Sign

theorem bigInteger_eq (negative : Bool) (digits : Bytes) :
    bigInteger negative digits = .ok (Term.bigInteger negative digits) := by
  unfold bigInteger Term.bigInteger
  dsimp only
  generalize hv : (if negative then -(toNatLE digits : Int) else toNatLE digits) = v
  rw [small?_eq hv.symm, checked_ok_bind]
  by_cases h : isInt64 v = true
  · rw [if_pos h, if_pos h]
    rfl
  · rw [if_neg h, if_neg h, ← toString_signed hv.symm h]
    simp only [decimal_eq, checked_ok_bind, pure_eq_ok]

/-! ### Digits in bytes -/

theorem toNatLE_eq_sum (digits : Bytes) :
    toNatLE digits = ∑ i : Fin digits.length, (digits.get i).toNat * 256 ^ (i : Nat) := by
  induction digits with
  | nil => rfl
  | cons d digits ih =>
    have hsum : ∑ i : Fin digits.length, (digits.get i).toNat * 256 ^ ((i : Nat) + 1) =
        256 * toNatLE digits := by
      rw [ih, Finset.mul_sum]
      refine Finset.sum_congr rfl fun i _ => ?_
      rw [Nat.pow_succ, ← Nat.mul_assoc, Nat.mul_comm 256]
    have hfirst : d.toNat = d.toNat * 256 ^ 0 := (Nat.mul_one _).symm
    rw [toNatLE, ← hsum, hfirst]
    exact (Fin.sum_univ_succ fun i : Fin (digits.length + 1) =>
      ((d :: digits).get i).toNat * 256 ^ (i : Nat)).symm

section Reading

variable (sign : UInt8) (digits : Bytes)

theorem reads_readBig : Cursor.Reads (Term.readBig digits.length) (sign :: digits)
    (Term.bigInteger (sign != 0) digits) := by
  intro pos suf
  simp only [Term.readBig, List.cons_append, Cursor.byte_cons, ok_bind,
    Cursor.reads_take (rfl : digits.length = _) _ _, List.length_cons, Nat.add_assoc,
    Nat.add_comm 1]
  rfl

variable (d : Term.Decoder) (fuel levels : Nat)

theorem reads_smallBig (h : digits.length < 256) :
    Cursor.Reads (Term.read d (fuel + 1) levels)
      (110 :: UInt8.ofNat digits.length :: sign :: digits)
      (Term.bigInteger (sign != 0) digits) := by
  intro pos suf
  have hlength := UInt8.toNat_ofNat_of_lt' h
  have hread := reads_readBig sign digits (pos + 2) suf
  rw [List.cons_append, List.cons_append, Term.read_smallBig, hlength, hread]
  simp only [List.length_cons, Nat.add_assoc, Nat.add_comm 2]

theorem reads_largeBig (h : digits.length < 2 ^ 32) :
    Cursor.Reads (Term.read d (fuel + 1) levels)
      (111 :: (ofNatBE 4 digits.length ++ sign :: digits))
      (Term.bigInteger (sign != 0) digits) := by
  intro pos suf
  have hword := Cursor.reads_word (show digits.length < 256 ^ 4 from h) (pos + 1)
    (sign :: digits ++ suf)
  have hread := reads_readBig sign digits (pos + 1 + 4) suf
  rw [length_ofNatBE] at hword
  rw [List.cons_append, List.append_assoc, Term.read_largeBig, hword, ok_bind]
  dsimp only
  rw [hread]
  simp only [List.length_cons, List.length_append, length_ofNatBE, Nat.add_assoc, Nat.add_comm 1]

end Reading

/-- An integer is read exactly, whatever its digits are and however many: as a number if it has no
more than 64 bits with its sign, and else as its one numeral. Nothing on the way is too large for
its width, neither in 128 bits nor in the limbs. -/
theorem bigInteger_exact (d : Term.Decoder) (fuel levels : Nat) (sign : UInt8) (digits : Bytes) :
    let m : Nat := ∑ i : Fin digits.length, (digits.get i).toNat * 256 ^ (i : Nat)
    let v : Int := if sign = 0 then (m : Int) else -(m : Int)
    ∃ numeral magnitude,
      (∀ text, Text.IsNumeral v text ↔ text = numeral) ∧
      (∀ text, Text.IsNumeral m text ↔ text = magnitude) ∧
      let t : Term := if -(2 ^ 63) ≤ v ∧ v ≤ 2 ^ 63 - 1 then .integer v else .other numeral
      Cursor.Reads (Term.readBig digits.length) (sign :: digits) t ∧
      (digits.length < 256 → Cursor.Reads (Term.read d (fuel + 1) levels)
        (110 :: UInt8.ofNat digits.length :: sign :: digits) t) ∧
      (digits.length < 2 ^ 32 → Cursor.Reads (Term.read d (fuel + 1) levels)
        (111 :: (ofNatBE 4 digits.length ++ sign :: digits)) t) ∧
      bigInteger (sign != 0) digits = .ok t ∧ decimal digits = .ok magnitude := by
  intro m v
  have hm : toNatLE digits = m := toNatLE_eq_sum digits
  have hv : (if sign != 0 then -(toNatLE digits : Int) else toNatLE digits) = v := by
    rw [hm]
    by_cases hsign : sign = 0 <;> simp [v, hsign]
  have ht : Term.bigInteger (sign != 0) digits =
      if -(2 ^ 63) ≤ v ∧ v ≤ 2 ^ 63 - 1 then .integer v else .other (toString v) := by
    have hrange : isInt64 v = true ↔ -(2 ^ 63) ≤ v ∧ v ≤ 2 ^ 63 - 1 := by
      rw [Compact.isInt64_iff]
      omega
    simp only [Term.bigInteger, hv, hrange]
  refine ⟨toString v, toString (m : Int), fun text => Text.isNumeral_iff,
    fun text => Text.isNumeral_iff, ?_⟩
  intro t
  rw [show t = Term.bigInteger (sign != 0) digits from ht.symm]
  refine ⟨reads_readBig sign digits, fun h => ?_, fun h => ?_, bigInteger_eq (sign != 0) digits, ?_⟩
  · exact reads_smallBig sign digits d fuel levels h
  · exact reads_largeBig sign digits d fuel levels h
  · rw [← hm]
    exact decimal_eq digits

-- Ten to the power 27, negative: three limbs are zero, and each is written in full.
theorem bigInteger_exact_zero_limbs :
    let digits : Bytes := [0, 0, 0, 232, 60, 128, 208, 159, 60, 46, 59, 3]
    Term.read .standard 1 0 ⟨0, 110 :: 12 :: 255 :: digits⟩ =
        .ok (.other "-1000000000000000000000000000", ⟨15, []⟩) ∧
      decimal digits = .ok "1000000000000000000000000000" := by
  intro digits
  have hm : ∑ i : Fin digits.length, (digits.get i).toNat * 256 ^ (i : Nat) = 10 ^ 27 := by
    decide +kernel
  have hnegative : Text.IsNumeral (-(10 ^ 27)) "-1000000000000000000000000000" :=
    ⟨'1' :: List.replicate 27 '0', by decide, by decide, by decide, by decide⟩
  have hpositive : Text.IsNumeral (10 ^ 27) "1000000000000000000000000000" :=
    ⟨'1' :: List.replicate 27 '0', by decide, by decide, by decide, by decide⟩
  have hexact := bigInteger_exact .standard 0 0 255 digits
  rw [hm] at hexact
  obtain ⟨numeral, magnitude, hnumeral, hmagnitude, -, hsmall, -, -, hdecimal⟩ := hexact
  obtain rfl := (hnumeral _).mp hnegative
  obtain rfl := (hmagnitude _).mp hpositive
  exact ⟨hsmall (by decide) 0 [], hdecimal⟩

end BeamScope.Positional
