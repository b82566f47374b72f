import BeamScope.Proofs.CompactForms

/-!
# How short the written form of a compact number is

`encode` drops leading bytes that only repeat the sign. Under the integer tag no form of the number
is shorter than what is left. Every other tag reads its digits without a sign, so there the zero
byte that keeps the first bit clear could be dropped too, and `encode` keeps it: for such numbers it
is one byte too long, and never more than one.
-/

namespace BeamScope.Compact

open Bytes

/-- The number takes no more than `n + 1` bytes in two's complement. -/
def Fits (n : Nat) (v : Int) : Prop := -(128 * 256 ^ n : Nat) ≤ v ∧ v < (128 * 256 ^ n : Nat)

/-- The number fills whole bytes, at least two, up to the first bit. -/
def FillsBytes (v : Int) : Prop :=
  ∃ k : Nat, 1 ≤ k ∧ (128 * 256 ^ k : Nat) ≤ v ∧ v < (256 ^ (k + 1) : Nat)

theorem Fits.mono {m n : Nat} {v : Int} (h : Fits m v) (hmn : m ≤ n) : Fits n v := by
  have hpow : 256 ^ m ≤ 256 ^ n := Nat.pow_le_pow_right (by decide) hmn
  unfold Fits at h ⊢
  omega

/-! ### The digits that trimming leaves -/

theorem fits_toIntBE {bs : Bytes} {n : Nat} (h : bs.length = n + 1) : Fits n (toIntBE bs) := by
  have hlt := toNatBE_lt bs
  rw [h, Nat.pow_succ'] at hlt
  unfold Fits
  by_cases hsign : toNatBE bs < 128 * 256 ^ n
  · rw [toIntBE_eq_of_lt h hsign]
    omega
  · have hpow : (256 : Int) ^ n = ((256 ^ n : Nat) : Int) := by
      rw [Int.natCast_pow]
      rfl
    rw [toIntBE_eq_of_le h (by omega), hpow]
    omega

theorem not_fits_of_not_redundant {b next : UInt8} (bs : Bytes) (h : ¬redundant b next = true) :
    ¬Fits bs.length (toIntBE (b :: next :: bs)) := by
  have hrest := toNatBE_lt bs
  have hb := b.toNat_lt
  have hnext := next.toNat_lt
  have hfirst : 128 ≤ b.toNat * 256 + next.toNat ∧ b.toNat * 256 + next.toNat < 65408 := by
    simp only [redundant, Bool.or_eq_true, Bool.and_eq_true, beq_iff_eq, decide_eq_true_eq,
      ← UInt8.toNat_inj, UInt8.lt_iff_toNat_lt, UInt8.le_iff_toNat_le] at h
    have hzero : (0x00 : UInt8).toNat = 0 := rfl
    have hhalf : (0x80 : UInt8).toNat = 128 := rfl
    have hlast : (0xff : UInt8).toNat = 255 := rfl
    omega
  have hnat : toNatBE (b :: next :: bs) =
      (b.toNat * 256 + next.toNat) * 256 ^ bs.length + toNatBE bs := by
    rw [toNatBE_cons, toNatBE_cons, List.length_cons, Nat.pow_succ', Nat.add_mul, Nat.mul_assoc]
    omega
  have hlow : 128 * 256 ^ bs.length ≤ (b.toNat * 256 + next.toNat) * 256 ^ bs.length :=
    Nat.mul_le_mul_right _ hfirst.1
  have hhigh : (b.toNat * 256 + next.toNat + 1) * 256 ^ bs.length ≤ 65408 * 256 ^ bs.length :=
    Nat.mul_le_mul_right _ hfirst.2
  rw [Nat.add_mul, Nat.one_mul] at hhigh
  have hlength : (b :: next :: bs).length = bs.length + 1 + 1 := rfl
  have hpow : (256 : Int) ^ (bs.length + 1) = 256 * ((256 ^ bs.length : Nat) : Int) := by
    rw [Int.pow_succ', Int.natCast_pow]
    rfl
  unfold Fits
  by_cases hsign : toNatBE (b :: next :: bs) < 128 * 256 ^ (bs.length + 1)
  · rw [toIntBE_eq_of_lt hlength hsign]
    omega
  · rw [toIntBE_eq_of_le hlength (Nat.le_of_not_lt hsign), hpow]
    omega

theorem length_trimSign_le {n : Nat} (hn : 1 ≤ n) {bs : Bytes} (h : Fits n (toIntBE bs)) :
    (trimSign bs).length ≤ n + 1 := by
  fun_induction trimSign bs with
  | case1 b next more bs hr ih =>
    apply ih
    rwa [toIntBE_redundant (more :: bs) hr] at h
  | case2 b next more bs hr =>
    -- A first byte that is kept is one that a shorter number could not do without.
    have hlong := not_fits_of_not_redundant (more :: bs) hr
    rw [List.length_cons, List.length_cons, List.length_cons]
    refine Nat.le_of_not_lt fun hlt => hlong (h.mono ?_)
    rw [List.length_cons]
    omega
  | case3 bs hshort =>
    rcases bs with _ | ⟨b, _ | ⟨next, _ | ⟨more, bs⟩⟩⟩
    · simp
    · simp
    · simpa using hn
    · exact absurd rfl (hshort b next more bs)

theorem length_shortest_le_iff {v : Int} (hv : -(2 ^ 63) ≤ v ∧ v < 2 ^ 63) {n : Nat} (hn : 1 ≤ n) :
    (shortest v).length ≤ n + 1 ↔ Fits n v := by
  constructor
  · intro hle
    obtain ⟨hmin, -⟩ := length_shortest v
    have hfits := fits_toIntBE (show (shortest v).length = (shortest v).length - 1 + 1 by omega)
    rw [toIntBE_shortest hv] at hfits
    exact hfits.mono (by omega)
  · intro hfits
    have hvalue : toIntBE (ofIntBE 8 v) = v := by
      rw [← toIntBE_trimSign]
      exact toIntBE_shortest hv
    apply length_trimSign_le hn
    rwa [hvalue]

/-! ### The forms of one number compared -/

theorem length_encode_of_lt (tag : Tag) {v : Int} (h0 : 0 ≤ v) (h : v < 2048) :
    (encode tag v).length ≤ 2 ∧ (v < 16 → (encode tag v).length = 1) := by
  unfold encode
  by_cases h16 : 0 ≤ v ∧ v < 16
  · rw [if_pos h16]
    exact ⟨by simp, fun _ => rfl⟩
  · rw [if_neg h16, if_pos ⟨h0, h⟩]
    exact ⟨Nat.le_refl _, fun hlt => absurd ⟨h0, hlt⟩ h16⟩

theorem length_encode_of_not_lt (tag : Tag) {v : Int} (h : ¬(0 ≤ v ∧ v < 2048)) :
    (encode tag v).length = (shortest v).length + 1 := by
  have h16 : ¬(0 ≤ v ∧ v < 16) := by omega
  unfold encode
  rw [if_neg h16, if_neg h, List.length_cons]

theorem length_encode_le_of_fits (tag : Tag) {v : Int} (hv : -(2 ^ 63) ≤ v ∧ v < 2 ^ 63) {n : Nat}
    (hn : 1 ≤ n) (h : Fits n v) : (encode tag v).length ≤ n + 2 := by
  by_cases hsmall : 0 ≤ v ∧ v < 2048
  · have hle := (length_encode_of_lt tag hsmall.1 hsmall.2).1
    omega
  · rw [length_encode_of_not_lt tag hsmall]
    have hle := (length_shortest_le_iff hv hn).mpr h
    omega

theorem Head.length_pos {tag : Tag} {len : Nat} {head : Bytes} (h : Head tag len head) :
    1 ≤ head.length ∧ 2 ≤ len := by
  cases h with
  | short hmin hmax => exact ⟨Nat.le_refl _, hmin⟩
  | long hsize => exact ⟨by simp, by omega⟩

theorem toNatBE_fits_or_fills {bs : Bytes} (h : 2 ≤ bs.length) :
    Fits (bs.length - 1) (toNatBE bs) ∨ Fits bs.length (toNatBE bs) ∧ FillsBytes (toNatBE bs) := by
  obtain ⟨k, hk⟩ : ∃ k, bs.length = k + 1 := ⟨bs.length - 1, by omega⟩
  have hlt := toNatBE_lt bs
  rw [hk] at hlt ⊢
  rw [Nat.add_sub_cancel]
  have hpow : 256 ^ (k + 1) = 256 * 256 ^ k := Nat.pow_succ'
  unfold Fits
  by_cases hlow : toNatBE bs < 128 * 256 ^ k
  · exact .inl (by omega)
  · refine .inr ⟨by omega, k, by omega, ?_, ?_⟩
    · exact Int.ofNat_le.mpr (Nat.le_of_not_lt hlow)
    · exact Int.ofNat_lt.mpr hlt

/-- A form is at most one byte shorter than the written one, and shorter only for a number without
a sign that fills its bytes. -/
theorem Written.length_encode_le {tag : Tag} {v : Int} {w : Bytes} (h : Written tag v w) :
    (encode tag v).length ≤ w.length ∨
      (encode tag v).length ≤ w.length + 1 ∧ tag ≠ .integer ∧ FillsBytes v := by
  cases h with
  | @one _ n hv =>
    obtain ⟨-, hone⟩ := length_encode_of_lt tag (Int.natCast_nonneg n) (by omega)
    exact .inl (Nat.le_of_eq (hone (by omega)))
  | two htag hv => exact .inl (length_encode_of_lt tag (by omega) (by omega)).1
  | @digits _ head digits htag hhead hfits =>
    obtain ⟨hpos, htwo⟩ := hhead.length_pos
    have hint := (isInt64_iff _).mp hfits
    rw [List.length_append]
    by_cases hsigned : tag = .integer
    · have hvalue : number tag digits = toIntBE digits := if_pos hsigned
      have hfit := fits_toIntBE (show digits.length = digits.length - 1 + 1 by omega)
      rw [← hvalue] at hfit
      have hle := length_encode_le_of_fits tag hint (by omega) hfit
      exact .inl (by omega)
    · have hvalue : number tag digits = toNatBE digits := if_neg hsigned
      rcases toNatBE_fits_or_fills htwo with hfit | ⟨hfit, hfills⟩
      · rw [← hvalue] at hfit
        have hle := length_encode_le_of_fits tag hint (by omega) hfit
        exact .inl (by omega)
      · rw [← hvalue] at hfit hfills
        have hle := length_encode_le_of_fits tag hint (by omega) hfit
        exact .inr ⟨by omega, hsigned, hfills⟩

theorem written_of_decode {tag : Tag} {v : Int} {w : Bytes}
    (h : decode w 0 = .ok (⟨tag, v⟩, w.length)) : Written tag v w := by
  obtain ⟨form, suf, hsplit, hlength, hform⟩ := written_of_read h
  have hsuf : suf = [] := by
    have htotal := congrArg List.length hsplit
    rw [List.length_append, List.length_drop] at htotal
    exact List.eq_nil_of_length_eq_zero (by omega)
  rw [hsuf, List.append_nil, List.drop_zero] at hsplit
  rwa [hsplit]

/-- The digits of a number that fills its bytes, without a sign byte. -/
theorem exists_written_shorter {tag : Tag} {v : Int} (h : tag.Admits v) (htag : tag ≠ .integer)
    (hfills : FillsBytes v) : ∃ w, Written tag v w ∧ w.length < (encode tag v).length := by
  obtain ⟨k, hk, hlow, hhigh⟩ := hfills
  have hint := h.int64
  have hnn := h.nonneg htag
  have hpow : 256 ^ 1 ≤ 256 ^ k := Nat.pow_le_pow_right (by decide) hk
  have hext : tag ≠ .extended := by
    rintro rfl
    have hbound := h.2
    simp only [Tag.bound] at hbound
    omega
  have hseven : k < 7 := by
    refine Nat.lt_of_not_le fun hge => ?_
    have hlarge : 256 ^ 7 ≤ 256 ^ k := Nat.pow_le_pow_right (by decide) hge
    omega
  have hlen : (ofNatBE (k + 1) v.toNat).length = k + 1 := length_ofNatBE _ _
  have hvalue : number tag (ofNatBE (k + 1) v.toNat) = v := by
    have hfits : v.toNat < 256 ^ (k + 1) := by omega
    have hnat := toNatBE_ofNatBE_of_lt hfits
    unfold number
    rw [if_neg htag, hnat, Int.toNat_of_nonneg hnn]
  have hhead : Head tag (ofNatBE (k + 1) v.toNat).length [lead (4 * (k + 1 - 2) + 3) tag] := by
    rw [hlen]
    exact .short (by omega) (by omega)
  have hwritten := Written.digits hext hhead (by rw [hvalue, isInt64_iff]; exact hint)
  rw [hvalue] at hwritten
  refine ⟨_, hwritten, ?_⟩
  have hlong : ¬(shortest v).length ≤ k + 1 := by
    rw [length_shortest_le_iff hint hk]
    unfold Fits
    omega
  rw [length_encode_of_not_lt tag (by omega), List.length_append, hlen, List.length_singleton]
  omega

/-- How short the written form is: no form of the number is shorter by more than one byte, and one
that is shorter exists if and only if the number stands under a tag without a sign and fills whole
bytes, at least two. -/
theorem encode_shortest_but_sign_byte (tag : Tag) (v : Int) (h : tag.Admits v) :
    (∀ w, decode w 0 = .ok (⟨tag, v⟩, w.length) → (encode tag v).length ≤ w.length + 1) ∧
    ((∃ w : Bytes, w.length < (encode tag v).length ∧ decode w 0 = .ok (⟨tag, v⟩, w.length)) ↔
      tag ≠ .integer ∧
        ∃ k : Nat, 1 ≤ k ∧ (128 * 256 ^ k : Nat) ≤ v ∧ v < (256 ^ (k + 1) : Nat)) := by
  refine ⟨?_, ?_, ?_⟩
  · intro w hw
    rcases (written_of_decode hw).length_encode_le with hle | ⟨hle, -⟩ <;> omega
  · rintro ⟨w, hshorter, hw⟩
    rcases (written_of_decode hw).length_encode_le with hle | ⟨-, htag, hfills⟩
    · omega
    · exact ⟨htag, hfills⟩
  · rintro ⟨htag, hfills⟩
    obtain ⟨w, hw, hshorter⟩ := exists_written_shorter h htag hfills
    have hread := hw.read_append 0 []
    rw [List.append_nil] at hread
    exact ⟨w, hshorter, hread⟩

-- 0x8000 under a tag without a sign and as an integer literal: only the first has a shorter form.
theorem encode_shortest_but_sign_byte_first :
    (Tag.Admits .x 0x8000 ∧
      ∃ w : Bytes, w.length < (encode .x 0x8000).length ∧
        decode w 0 = .ok (⟨.x, 0x8000⟩, w.length)) ∧
    (Tag.Admits .integer 0x8000 ∧
      ¬∃ w : Bytes, w.length < (encode .integer 0x8000).length ∧
        decode w 0 = .ok (⟨.integer, 0x8000⟩, w.length)) := by
  have hunsigned := encode_shortest_but_sign_byte .x 0x8000 (by decide)
  have hsigned := encode_shortest_but_sign_byte .integer 0x8000 (by decide)
  exact ⟨⟨by decide, hunsigned.2.mpr ⟨by decide, 1, by decide⟩⟩, by decide,
    fun hw => (hsigned.2.mp hw).1 rfl⟩

/-- Not every written form is the shortest: 0x8000 without a sign is written in four bytes and read
from three. -/
theorem encode_not_always_shortest :
    ¬∀ (tag : Tag) (v : Int), tag.Admits v → ∀ w : Bytes, w.length < (encode tag v).length →
      decode w 0 ≠ .ok (⟨tag, v⟩, w.length) := by
  intro hall
  exact hall .unsigned 0x8000 (by decide) [0x18, 0x80, 0x00] (by decide) rfl

end BeamScope.Compact
