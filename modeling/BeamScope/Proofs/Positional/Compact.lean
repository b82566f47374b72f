import BeamScope.Compact
import BeamScope.Proofs.Positional.Basic

/-!
# Compact numbers by position

A compact number read at a position. Its digits are gathered in 64 bits, after leading digits that
only repeat the sign are dropped: what is left is too long, or starts with the wrong bit, exactly if
the number does not fit.
-/

namespace BeamScope

namespace Compact

/-- What a number that was read is like: it takes a byte at least and no more than there are, fits
in 64 bits, and has a sign only under the integer tag. -/
structure WellRead (bs : Bytes) (item : Compact) (used : Nat) : Prop where
  pos : 1 ≤ used
  le : used ≤ bs.length
  int64 : -(2 ^ 63) ≤ item.value ∧ item.value < 2 ^ 63
  nonneg : item.tag ≠ .integer → 0 ≤ item.value

theorem isInt64_iff (v : Int) : isInt64 v = true ↔ -(2 ^ 63) ≤ v ∧ v < 2 ^ 63 := by
  simp [isInt64]

theorem payload_eq_ok {tag : Tag} {offset header len : Nat} {bs : Bytes} {item : Compact}
    {used : Nat} (h : payload tag offset header len bs = .ok (item, used)) :
    len ≤ bs.length ∧ used = header + len ∧ item.tag = tag ∧
      (-(2 ^ 63) ≤ item.value ∧ item.value < 2 ^ 63) ∧ (tag ≠ .integer → 0 ≤ item.value) := by
  simp only [payload] at h
  generalize hval : (if tag = .integer then Bytes.toIntBE (bs.take len)
    else (Bytes.toNatBE (bs.take len) : Int)) = value at h
  split at h
  · rename_i hh
    split at h
    · rename_i hv
      cases h
      refine ⟨Bytes.holds_iff.mp hh, rfl, rfl, (isInt64_iff _).mp hv, ?_⟩
      intro ht
      rw [if_neg ht] at hval
      exact hval ▸ Int.natCast_nonneg _
    · cases h
  · cases h

theorem wellRead_of_read {offset : Nat} {bs : Bytes} {item : Compact} {used : Nat}
    (h : read offset bs = .ok (item, used)) : WellRead bs item used := by
  induction bs generalizing offset item used with
  | nil => cases h
  | cons b rest ih =>
    have hb := b.toNat_lt
    simp only [read] at h
    split at h
    · cases h
      exact ⟨by omega, by simp, by simp only; omega, fun _ => by simp only; omega⟩
    · split at h
      · cases h
      · split at h
        · cases rest with
          | nil => cases h
          | cons low more =>
            have hl := low.toNat_lt
            cases h
            exact ⟨by omega, by simp, by simp only; omega, fun _ => by simp only; omega⟩
        · split at h
          · obtain ⟨hle, hused, htag, hint, hnn⟩ := payload_eq_ok h
            refine ⟨by omega, ?_, hint, fun ht => hnn (htag ▸ ht)⟩
            rw [hused, List.length_cons]
            omega
          · cases hi : read (offset + 1) rest with
            | error e =>
              rw [hi] at h
              cases h
            | ok found =>
              obtain ⟨inner, innerUsed⟩ := found
              have hin := ih hi
              rw [hi] at h
              simp only at h
              split at h
              · obtain ⟨hle, hused, htag, hint, hnn⟩ := payload_eq_ok h
                have hused' := hin.le
                rw [List.length_drop] at hle
                refine ⟨by omega, ?_, hint, fun ht => hnn (htag ▸ ht)⟩
                rw [hused, List.length_cons]
                omega
              · cases h

end Compact

namespace Positional

open Bytes

/-! ### Numbers of 64 bits -/

def shiftIn (v : UInt64) (b : UInt8) : UInt64 := (v <<< 8) ||| b.toUInt64

def isHigh (b : UInt8) : Bool := 128 ≤ b.toNat

/-- Leading bytes equal to `fill` dropped, as long as more than eight are left. -/
def stripFill (fill : UInt8) : (steps : Nat) → Bytes → Checked Bytes
  | 0, bs => .ok bs
  | steps + 1, bs =>
    if 8 < bs.length then do
      let b ← index bs 0
      if b = fill then
        let bs ← slice bs 1 bs.length
        stripFill fill steps bs
      else return bs
    else return bs

/-- Whether eight bytes start with another bit than the sign. -/
def wrongSign (negative : Bool) (bs : Bytes) : Checked Bool :=
  if bs.length = 8 then do
    let b ← index bs 0
    return isHigh b != negative
  else return false

/-- The number that `bs` holds, in two's complement if `signed`. -/
def fromBE (bs : Bytes) (signed : Bool) (offset : Nat) : Checked Int := do
  let negative := signed && bs.head?.any isHigh
  let fill : UInt8 := if negative then 0xff else 0x00
  let significant ← stripFill fill bs.length bs
  if 8 < significant.length then fail (.overflow offset)
  else
    let wrong ← wrongSign negative significant
    if wrong then fail (.overflow offset)
    else
      let start : UInt64 := if negative then 0xffffffffffffffff else 0
      return (significant.foldl shiftIn start).toInt64.toInt

theorem toNat_shiftIn (v : UInt64) (b : UInt8) :
    (shiftIn v b).toNat = (v.toNat * 256 + b.toNat) % 2 ^ 64 := by
  have hb := b.toNat_lt
  have hs : (v <<< 8).toNat = (v.toNat % 2 ^ 56) <<< 8 := by
    rw [UInt64.toNat_shiftLeft]
    simp only [UInt64.reduceToNat, Nat.reduceMod, Nat.shiftLeft_eq]
    omega
  rw [shiftIn, UInt64.toNat_or, hs, UInt8.toNat_toUInt64, ← Nat.shiftLeft_add_eq_or_of_lt hb,
    Nat.shiftLeft_eq]
  omega

theorem toNat_foldl_shiftIn (bs : Bytes) (v : UInt64) :
    (bs.foldl shiftIn v).toNat = (v.toNat * 256 ^ bs.length + toNatBE bs) % 2 ^ 64 := by
  induction bs generalizing v with
  | nil => simp [toNatBE]
  | cons b bs ih =>
    rw [List.foldl_cons, ih, toNat_shiftIn, toNatBE_cons, List.length_cons]
    rw [Nat.add_mod, Nat.mod_mul_mod, ← Nat.add_mod]
    congr 1
    rw [Nat.pow_succ', Nat.add_mul, Nat.mul_assoc, Nat.add_assoc]

/-- The number that `bs` holds if a sign is thought in front of it. -/
def signedValue (negative : Bool) (bs : Bytes) : Int :=
  if negative then (toNatBE bs : Int) - (256 ^ bs.length : Nat) else toNatBE bs

theorem toInt_foldl_shiftIn {negative : Bool} {bs : Bytes}
    (h : -(2 ^ 63) ≤ signedValue negative bs ∧ signedValue negative bs < 2 ^ 63) :
    (bs.foldl shiftIn (if negative then 0xffffffffffffffff else 0)).toInt64.toInt =
      signedValue negative bs := by
  have hmod (v : UInt64) : v.toInt64.toInt = Int.bmod v.toNat (2 ^ 64) :=
    BitVec.toInt_eq_toNat_bmod _
  rw [hmod, toNat_foldl_shiftIn, Int.natCast_emod, Int.emod_bmod]
  cases negative with
  | false =>
    simp only [signedValue, Bool.false_eq_true, if_false] at h ⊢
    rw [UInt64.toNat_zero, Nat.zero_mul, Nat.zero_add]
    exact Int.bmod_eq_of_le (by omega) (by omega)
  | true =>
    simp only [signedValue, if_true] at h ⊢
    have hstart : (0xffffffffffffffff : UInt64).toNat = 2 ^ 64 - 1 := rfl
    have hsum : (((0xffffffffffffffff : UInt64).toNat * 256 ^ bs.length + toNatBE bs : Nat) : Int) =
        ((toNatBE bs : Int) - (256 ^ bs.length : Nat)) +
          ((2 ^ 64 : Nat) : Int) * (256 ^ bs.length : Nat) := by
      rw [hstart]
      omega
    rw [hsum, Int.add_mul_bmod_self_left]
    exact Int.bmod_eq_of_le (by omega) (by omega)

/-- The byte that only repeats a sign. -/
def fillOf (negative : Bool) : UInt8 := if negative then 0xff else 0x00

theorem signedValue_cons (negative : Bool) (b : UInt8) (bs : Bytes) :
    signedValue negative (b :: bs) =
      (b.toNat : Int) * (256 ^ bs.length : Nat) + toNatBE bs -
        (if negative then 256 * ((256 ^ bs.length : Nat) : Int) else 0) := by
  have hp : ((256 ^ (bs.length + 1) : Nat) : Int) = 256 * ((256 ^ bs.length : Nat) : Int) := by
    rw [Nat.pow_succ', Int.natCast_mul]
    rfl
  cases negative with
  | false =>
    simp only [signedValue, toNatBE_cons, Int.natCast_add, Int.natCast_mul, Bool.false_eq_true,
      if_false, Int.sub_zero]
  | true =>
    simp only [signedValue, toNatBE_cons, Int.natCast_add, Int.natCast_mul, if_true,
      List.length_cons, hp]

theorem signedValue_fillOf (negative : Bool) (bs : Bytes) :
    signedValue negative (fillOf negative :: bs) = signedValue negative bs := by
  rw [signedValue_cons]
  cases negative with
  | false => simp [fillOf, signedValue]
  | true =>
    have hf : (fillOf true).toNat = 255 := rfl
    rw [hf]
    simp only [signedValue, if_true]
    omega

/-- Dropping repeats of the sign changes nothing, and if more than eight bytes are left, they do not
start with another repeat. -/
theorem stripFill_spec (negative : Bool) (steps : Nat) (bs : Bytes) (hsteps : bs.length ≤ steps) :
    ∃ s, stripFill (fillOf negative) steps bs = .ok s ∧
      signedValue negative s = signedValue negative bs ∧
      (8 < s.length → ∃ b rest, s = b :: rest ∧ b ≠ fillOf negative) := by
  induction steps generalizing bs with
  | zero => exact ⟨bs, rfl, rfl, fun h => by omega⟩
  | succ steps ih =>
    by_cases hlong : 8 < bs.length
    · cases bs with
      | nil => simp at hlong
      | cons b rest =>
        have hindex : index (b :: rest) 0 = .ok b := rfl
        simp only [stripFill, if_pos hlong, hindex, checked_ok_bind]
        by_cases hb : b = fillOf negative
        · have hslice : slice (b :: rest) 1 (b :: rest).length = .ok rest := by
            rw [slice_eq_ok (by simp) (Nat.le_refl _)]
            simp
          obtain ⟨s, hs, hvalue, hfirst⟩ := ih rest (by simp at hsteps; omega)
          refine ⟨s, ?_, ?_, hfirst⟩
          · simp only [if_pos hb, hslice, checked_ok_bind, hs]
          · rw [hvalue, hb, signedValue_fillOf]
        · refine ⟨b :: rest, ?_, rfl, fun _ => ⟨b, rest, rfl, hb⟩⟩
          simp only [if_neg hb, pure_eq_ok]
    · refine ⟨bs, ?_, rfl, fun h => absurd h hlong⟩
      simp only [stripFill, if_neg hlong, pure_eq_ok]

theorem not_fits_of_first {negative : Bool} {b : UInt8} {bs : Bytes} (hlong : 8 ≤ bs.length)
    (hb : b ≠ fillOf negative) :
    ¬(-(2 ^ 63) ≤ signedValue negative (b :: bs) ∧ signedValue negative (b :: bs) < 2 ^ 63) := by
  have hpow : 256 ^ 8 ≤ 256 ^ bs.length := Nat.pow_le_pow_right (by decide) hlong
  have hlt := toNatBE_lt bs
  rw [signedValue_cons]
  cases negative with
  | false =>
    have hne : b.toNat ≠ 0 := fun h0 => hb (UInt8.toNat_inj.mp h0)
    have hm : 1 * 256 ^ bs.length ≤ b.toNat * 256 ^ bs.length :=
      Nat.mul_le_mul_right _ (by omega)
    simp only [Bool.false_eq_true, if_false, ← Int.natCast_mul]
    omega
  | true =>
    have hne : b.toNat ≠ 255 := fun h0 => hb (UInt8.toNat_inj.mp h0)
    have hb' := b.toNat_lt
    have hm : b.toNat * 256 ^ bs.length ≤ 254 * 256 ^ bs.length :=
      Nat.mul_le_mul_right _ (by omega)
    simp only [if_true, ← Int.natCast_mul]
    omega

theorem wrongSign_eq {negative : Bool} {bs : Bytes} (h : bs.length ≤ 8) :
    wrongSign negative bs = .ok (!decide (-(2 ^ 63) ≤ signedValue negative bs ∧
      signedValue negative bs < 2 ^ 63)) := by
  have hlt := toNatBE_lt bs
  by_cases h8 : bs.length = 8
  · cases bs with
    | nil => simp at h8
    | cons b rest =>
      have hr : rest.length = 7 := by simpa using h8
      have hindex : index (b :: rest) 0 = .ok b := rfl
      have hb := b.toNat_lt
      have hrest := toNatBE_lt rest
      rw [hr] at hrest
      simp only [wrongSign, if_pos h8, hindex, checked_ok_bind, pure_eq_ok, signedValue_cons, hr]
      congr 1
      rw [Bool.eq_iff_iff]
      cases negative with
      | false => simp [isHigh]; omega
      | true => simp [isHigh]; omega
  · have hpow : 256 ^ bs.length ≤ 256 ^ 7 := Nat.pow_le_pow_right (by decide) (by omega)
    have hfits : -(2 ^ 63) ≤ signedValue negative bs ∧ signedValue negative bs < 2 ^ 63 := by
      cases negative with
      | false => simp only [signedValue, Bool.false_eq_true, if_false]; omega
      | true => simp only [signedValue, if_true]; omega
    simp only [wrongSign, if_neg h8, hfits, pure_eq_ok]
    rfl

theorem signedValue_sign (bs : Bytes) (signed : Bool) :
    signedValue (signed && bs.head?.any isHigh) bs =
      if signed then toIntBE bs else (toNatBE bs : Int) := by
  cases signed with
  | false => rfl
  | true =>
    cases bs with
    | nil => rfl
    | cons b rest =>
      have hp : ((256 : Int) * 256 ^ rest.length) = ((256 ^ (b :: rest).length : Nat) : Int) := by
        rw [List.length_cons, Nat.pow_succ', Int.natCast_mul, Int.natCast_pow]
        rfl
      simp only [toIntBE_cons, if_true, Bool.true_and, List.head?_cons, Option.any_some, isHigh,
        signedValue, decide_eq_true_eq, hp]
      by_cases hb : b.toNat < 128
      · rw [if_pos hb, if_neg (by omega)]
      · rw [if_neg hb, if_pos (by omega)]

/-- The number is the one that the bytes hold, if it fits in 64 bits. -/
theorem fromBE_eq (bs : Bytes) (signed : Bool) (offset : Nat) :
    fromBE bs signed offset =
      let v := if signed then toIntBE bs else (toNatBE bs : Int)
      if isInt64 v then .ok v else fail (.overflow offset) := by
  simp only [← signedValue_sign, fromBE]
  generalize (signed && bs.head?.any isHigh) = negative
  obtain ⟨s, hs, hvalue, hfirst⟩ := stripFill_spec negative bs.length bs (Nat.le_refl _)
  rw [fillOf] at hs
  rw [hs, checked_ok_bind, ← hvalue]
  by_cases hlong : 8 < s.length
  · obtain ⟨b, rest, rfl, hb⟩ := hfirst hlong
    have hrest : 8 ≤ rest.length := by simpa using Nat.le_of_lt_succ hlong
    have hout := not_fits_of_first hrest hb
    rw [← Compact.isInt64_iff] at hout
    rw [if_pos hlong, if_neg hout]
  · rw [if_neg hlong, wrongSign_eq (by omega), checked_ok_bind]
    by_cases hfits : -(2 ^ 63) ≤ signedValue negative s ∧ signedValue negative s < 2 ^ 63
    · rw [if_pos ((Compact.isInt64_iff _).mpr hfits), toInt_foldl_shiftIn hfits]
      simp only [decide_eq_true hfits, Bool.not_true, Bool.false_eq_true, if_false, pure_eq_ok]
    · rw [if_neg (fun h => hfits ((Compact.isInt64_iff _).mp h))]
      simp only [decide_eq_false hfits, Bool.not_false, if_true]

/-! ### Compact numbers -/

/-- The number of `len` bytes at `pos`, in an item that starts at `offset`, and what the item takes
up to its end. -/
def numberAt (data : Bytes) (tag : Tag) (offset pos len : Nat) : Checked (Compact × Nat) := do
  let stop ← orFail (add? pos len) (.truncated offset)
  let bs ← orFail (slice? data pos stop) (.truncated offset)
  let value ← fromBE bs (tag = .integer) offset
  let used ← sub stop offset
  return (⟨tag, value⟩, used)

/-- The compact number at `offset`, and how many bytes it takes. At most `calls` calls are open at
once: the length of a number may itself be a compact number. -/
def decode (data : Bytes) : (calls offset : Nat) → Checked (Compact × Nat)
  | 0, _ => .error .exhausted
  | calls + 1, offset => do
    let b ← orFail data[offset]? (.truncated offset)
    let n := b.toNat
    let tag := Tag.ofBits n
    if n / 8 % 2 = 0 then return (⟨tag, (n / 16 : Nat)⟩, 1)
    else if tag = .extended then fail (.badTag b offset)
    else if n / 16 % 2 = 0 then
      let next ← add offset 1
      let low ← orFail data[next]? (.truncated offset)
      return (⟨tag, (n / 32 * 256 + low.toNat : Nat)⟩, 2)
    else
      let pos ← add offset 1
      if n / 32 = 7 then
        let (nested, used) ← decode data calls pos
        if nested.tag ≠ .unsigned ∨ nested.value < 0 then
          let b ← index data pos
          fail (.badTag b pos)
        else
          let pos ← add pos used
          let len ← orFail (add? nested.value.toNat 9) (.overflow offset)
          numberAt data tag offset pos len
      else
        let len ← add (n / 32) 2
        numberAt data tag offset pos len

theorem numberAt_eq {data : Bytes} (tag : Tag) {offset pos : Nat} (len : Nat)
    (hoffset : offset ≤ pos) (hpos : pos ≤ data.length) (hlen : data.length < 2 ^ 63) :
    numberAt data tag offset pos len =
      returned (Compact.payload tag offset (pos - offset) len (data.drop pos)) := by
  by_cases h : pos + len ≤ data.length
  · have hholds : holds len (data.drop pos) = true := by
      rw [holds_iff, List.length_drop]
      omega
    have hused : sub (pos + len) offset = .ok (pos - offset + len) := by
      rw [sub_eq_ok (by omega)]
      congr 1
      omega
    simp only [numberAt, add?_eq_some (show pos + len < 2 ^ 64 by omega), orFail_some,
      checked_ok_bind, slice?_eq_some (show pos ≤ pos + len by omega) h, Nat.add_sub_cancel_left,
      fromBE_eq, hused, Compact.payload, hholds, if_true, decide_eq_true_eq]
    generalize (if tag = .integer then toIntBE ((data.drop pos).take len)
      else (toNatBE ((data.drop pos).take len) : Int)) = value
    by_cases hv : isInt64 value = true
    · simp only [if_pos hv, checked_ok_bind, pure_eq_ok, returned_ok]
    · simp only [if_neg hv, fail_bind, returned_error]
  · have hholds : holds len (data.drop pos) = false := by
      rw [Bool.eq_false_iff, ne_eq, holds_iff, List.length_drop]
      omega
    simp only [Compact.payload, hholds, Bool.false_eq_true, if_false, returned_error, numberAt]
    -- The end is past the string, or past all positions.
    by_cases hsum : pos + len < 2 ^ 64
    · simp only [add?_eq_some hsum, orFail_some, checked_ok_bind,
        slice?_eq_none (show data.length < pos + len by omega), orFail_none, fail_bind]
    · simp only [add?, if_neg hsum, orFail_none, fail_bind]

theorem decode_eq {data : Bytes} (hlen : data.length < 2 ^ 63) {calls offset : Nat}
    (hcalls : data.length - offset < calls) :
    decode data calls offset = returned (Compact.decode data offset) := by
  induction calls generalizing offset with
  | zero => omega
  | succ calls ih =>
    -- The cases are those of the first byte: it holds the number, or where and how long that is.
    cases hb : data[offset]? with
    | none =>
      simp only [decode, hb, orFail_none, fail_bind, Compact.decode, drop_of_getElem?_none hb,
        Compact.read, returned_error]
    | some b =>
      obtain ⟨hlt, -⟩ := List.getElem?_eq_some_iff.mp hb
      have hadd : add offset 1 = .ok (offset + 1) := add_eq_ok (by omega)
      have hbound := b.toNat_lt
      simp only [decode, hb, orFail_some, checked_ok_bind, Compact.decode,
        drop_of_getElem?_some hb, Compact.read, hadd]
      by_cases hone : b.toNat / 8 % 2 = 0
      · simp only [if_pos hone, pure_eq_ok, returned_ok]
      · by_cases hext : Tag.ofBits b.toNat = .extended
        · simp only [if_neg hone, if_pos hext, returned_error]
        · by_cases htwo : b.toNat / 16 % 2 = 0
          · simp only [if_neg hone, if_neg hext, if_pos htwo]
            cases hlow : data[offset + 1]? with
            | none =>
              simp only [orFail_none, fail_bind, drop_of_getElem?_none hlow, returned_error]
            | some low =>
              rw [drop_of_getElem?_some hlow]
              rfl
          · simp only [if_neg hone, if_neg hext, if_neg htwo]
            by_cases hseven : b.toNat / 32 = 7
            · have hinner := ih (show data.length - (offset + 1) < calls by omega)
              rw [Compact.decode] at hinner
              rw [if_pos hseven, if_neg (show ¬b.toNat / 32 < 7 by omega), hinner]
              cases hread : Compact.read (offset + 1) (data.drop (offset + 1)) with
              | error e => rfl
              | ok found =>
                obtain ⟨inner, used⟩ := found
                have hw := Compact.wellRead_of_read hread
                have hused := hw.le
                have hused1 := hw.pos
                rw [List.length_drop] at hused
                simp only [returned_ok, checked_ok_bind]
                by_cases htag : inner.tag = .unsigned
                · have hnn : 0 ≤ inner.value := hw.nonneg (by rw [htag]; decide)
                  have hfit := hw.int64
                  rw [if_neg (by simp [htag]; omega), if_pos htag,
                    add_eq_ok (by omega), checked_ok_bind, add?_eq_some (by omega), orFail_some,
                    checked_ok_bind, numberAt_eq _ _ (by omega) (by omega) hlen, List.drop_drop]
                  congr 2
                  omega
                · -- The inner number was read, so there is a byte to name.
                  have hne : offset + 1 < data.length := by omega
                  have hfirst : data[offset + 1]? = some data[offset + 1] :=
                    List.getElem?_eq_getElem hne
                  rw [if_pos (Or.inl htag), if_neg htag, index_eq_ok hfirst,
                    List.drop_eq_getElem_cons hne]
                  rfl
            · rw [if_neg hseven, if_pos (show b.toNat / 32 < 7 by omega), add_eq_ok (by omega),
                checked_ok_bind, numberAt_eq _ _ (by omega) (by omega) hlen]
              congr 2
              omega

def next (data : Bytes) (pos : Nat) : Checked (Compact × Nat) := do
  let (item, used) ← decode data (data.length + 1) pos
  let pos ← add pos used
  return (item, pos)

theorem agrees_next {data : Bytes} (hlen : data.length < 2 ^ 63) {pos : Nat}
    (hpos : pos ≤ data.length) :
    Agrees data (pos + 1) (next data pos) (Compact.next (Cursor.ofOffset data pos)) := by
  simp only [next, decode_eq hlen (show data.length - pos < data.length + 1 by omega),
    Compact.decode, Compact.next, skip_ofOffset]
  simp only [Cursor.ofOffset]
  cases hread : Compact.read pos (data.drop pos) with
  | error e => exact Agrees.fail _ _
  | ok found =>
    obtain ⟨item, used⟩ := found
    have hw := Compact.wellRead_of_read hread
    have hused := hw.le
    have hused1 := hw.pos
    rw [List.length_drop] at hused
    simp only [returned_ok, checked_ok_bind, add_eq_ok (show pos + used < 2 ^ 64 by omega),
      pure_eq_ok]
    exact Agrees.ok item (by omega) (by omega)

theorem wellRead_of_next {c c' : Cursor} {item : Compact}
    (h : Compact.next c = .ok (item, c')) : ∃ used, Compact.WellRead c.rest item used := by
  simp only [Compact.next] at h
  cases hread : Compact.read c.pos c.rest with
  | error e =>
    rw [hread] at h
    cases h
  | ok found =>
    rw [hread] at h
    cases h
    exact ⟨found.2, Compact.wellRead_of_read hread⟩

theorem nonneg_of_next {c c' : Cursor} {item : Compact} (h : Compact.next c = .ok (item, c'))
    (ht : item.tag ≠ .integer) : 0 ≤ item.value := by
  obtain ⟨used, hw⟩ := wellRead_of_next h
  exact hw.nonneg ht

theorem int64_of_next {c c' : Cursor} {item : Compact} (h : Compact.next c = .ok (item, c')) :
    -(2 ^ 63) ≤ item.value ∧ item.value < 2 ^ 63 := by
  obtain ⟨used, hw⟩ := wellRead_of_next h
  exact hw.int64

end Positional

end BeamScope
