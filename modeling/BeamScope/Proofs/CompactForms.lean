import BeamScope.Proofs.CompactRoundTrip
import BeamScope.Proofs.Positional.Compact

/-!
# The forms of a compact number

`Written` is the grammar of compact numbers: the bytes that hold a number under a tag. A number has
many forms, most of which nothing would write; how many digits the longest one has is a compact
number again. Reading finds the written forms and nothing else, at any offset and whatever follows.
Of a form that is cut off anywhere it says that bytes are missing, never that they are wrong, so a
form marks its own end.
-/

namespace BeamScope

theorem Tag.bits_ofBits (n : Nat) : (Tag.ofBits n).bits = n % 8 := by
  have hall : ∀ k < 8, (Tag.ofBits k).bits = k := by decide
  have hmod : Tag.ofBits (n % 8) = Tag.ofBits n := by simp only [Tag.ofBits, Nat.mod_mod]
  rw [← hmod, hall _ (Nat.mod_lt _ (by decide))]

namespace Compact

open Bytes

/-- A first byte: five bits that choose the form, and the tag. -/
def lead (k : Nat) (tag : Tag) : UInt8 := UInt8.ofNat (8 * k + tag.bits)

/-- The number that digits hold under a tag. -/
def number (tag : Tag) (digits : Bytes) : Int :=
  if tag = .integer then toIntBE digits else toNatBE digits

mutual

/-- The bytes hold the number under the tag. -/
inductive Written : Tag → Int → Bytes → Prop where
  | one {tag : Tag} {v : Nat} (hv : v < 16) : Written tag v [lead (2 * v) tag]
  | two {tag : Tag} {v : Nat} (htag : tag ≠ .extended) (hv : v < 2048) :
      Written tag v [lead (4 * (v / 256) + 1) tag, UInt8.ofNat (v % 256)]
  | digits {tag : Tag} {head digits : Bytes} (htag : tag ≠ .extended)
      (hhead : Head tag digits.length head) (hfits : isInt64 (number tag digits) = true) :
      Written tag (number tag digits) (head ++ digits)

/-- The bytes stand before a number of digits under the tag: two to eight, or at least nine. -/
inductive Head : Tag → Nat → Bytes → Prop where
  | short {tag : Tag} {len : Nat} (hmin : 2 ≤ len) (hmax : len ≤ 8) :
      Head tag len [lead (4 * (len - 2) + 3) tag]
  | long {tag : Tag} {n : Nat} {size : Bytes} (hsize : Written .unsigned n size) :
      Head tag (n + 9) (lead 31 tag :: size)

end

/-! ### First bytes -/

theorem toNat_lead {k : Nat} (hk : k < 32) (tag : Tag) :
    (lead k tag).toNat = 8 * k + tag.bits := by
  have hbits := tag.bits_lt
  rw [lead, UInt8.toNat_ofNat']
  omega

/-- Every byte is the first of some form. -/
theorem eq_lead (b : UInt8) : ∃ tag,
    (∃ v < 16, b = lead (2 * v) tag) ∨ (∃ high < 8, b = lead (4 * high + 1) tag) ∨
      (∃ len, 2 ≤ len ∧ len ≤ 8 ∧ b = lead (4 * (len - 2) + 3) tag) ∨ b = lead 31 tag := by
  have hb := b.toNat_lt
  have hlead {k : Nat} (hk : b.toNat / 8 = k) : b = lead k (Tag.ofBits b.toNat) := by
    apply UInt8.toNat_inj.mp
    rw [toNat_lead (by omega), Tag.bits_ofBits]
    omega
  refine ⟨Tag.ofBits b.toNat, ?_⟩
  by_cases hone : b.toNat / 8 % 2 = 0
  · exact .inl ⟨b.toNat / 16, by omega, hlead (by omega)⟩
  · by_cases htwo : b.toNat / 16 % 2 = 0
    · exact .inr (.inl ⟨b.toNat / 32, by omega, hlead (by omega)⟩)
    · by_cases hshort : b.toNat / 32 < 7
      · exact .inr (.inr (.inl ⟨b.toNat / 32 + 2, by omega, by omega, hlead (by omega)⟩))
      · exact .inr (.inr (.inr (hlead (by omega))))

section Leads

variable (tag : Tag) (offset : Nat) (rest : Bytes)

theorem read_one {v : Nat} (hv : v < 16) :
    read offset (lead (2 * v) tag :: rest) = .ok (⟨tag, v⟩, 1) := by
  have hbits := tag.bits_lt
  have hform : (8 * (2 * v) + tag.bits) / 8 % 2 = 0 := by omega
  have hvalue : (8 * (2 * v) + tag.bits) / 16 = v := by omega
  simp only [read, toNat_lead (show 2 * v < 32 by omega), Tag.ofBits_add, if_pos hform, hvalue]

variable {tag}

theorem read_two (htag : tag ≠ .extended) {high : Nat} (hhigh : high < 8) (low : UInt8) :
    read offset (lead (4 * high + 1) tag :: low :: rest) =
      .ok (⟨tag, (high * 256 + low.toNat : Nat)⟩, 2) := by
  have hbits := tag.bits_lt
  have hone : ¬(8 * (4 * high + 1) + tag.bits) / 8 % 2 = 0 := by omega
  have hform : (8 * (4 * high + 1) + tag.bits) / 16 % 2 = 0 := by omega
  have hvalue : (8 * (4 * high + 1) + tag.bits) / 32 = high := by omega
  simp only [read, toNat_lead (show 4 * high + 1 < 32 by omega), Tag.ofBits_add, if_neg hone,
    if_neg htag, if_pos hform, hvalue]

theorem read_two_cut (htag : tag ≠ .extended) {high : Nat} (hhigh : high < 8) :
    read offset [lead (4 * high + 1) tag] = .error (.truncated offset) := by
  have hbits := tag.bits_lt
  have hone : ¬(8 * (4 * high + 1) + tag.bits) / 8 % 2 = 0 := by omega
  have hform : (8 * (4 * high + 1) + tag.bits) / 16 % 2 = 0 := by omega
  simp only [read, toNat_lead (show 4 * high + 1 < 32 by omega), Tag.ofBits_add, if_neg hone,
    if_neg htag, if_pos hform]

theorem read_short (htag : tag ≠ .extended) {len : Nat} (hmin : 2 ≤ len) (hmax : len ≤ 8) :
    read offset (lead (4 * (len - 2) + 3) tag :: rest) = payload tag offset 1 len rest := by
  have hbits := tag.bits_lt
  have hone : ¬(8 * (4 * (len - 2) + 3) + tag.bits) / 8 % 2 = 0 := by omega
  have htwo : ¬(8 * (4 * (len - 2) + 3) + tag.bits) / 16 % 2 = 0 := by omega
  have hform : (8 * (4 * (len - 2) + 3) + tag.bits) / 32 < 7 := by omega
  have hlen : (8 * (4 * (len - 2) + 3) + tag.bits) / 32 + 2 = len := by omega
  simp only [read, toNat_lead (show 4 * (len - 2) + 3 < 32 by omega), Tag.ofBits_add, if_neg hone,
    if_neg htag, if_neg htwo, if_pos hform, hlen]

/-- The longest form is decided by the number behind its first byte. -/
theorem read_long (htag : tag ≠ .extended) :
    read offset (lead 31 tag :: rest) =
      read (offset + 1) rest >>= fun found =>
        if found.1.tag = .unsigned then
          payload tag offset (1 + found.2) (found.1.value.toNat + 9) (rest.drop found.2)
        else .error (.badTag (rest.headD 0) (offset + 1)) := by
  have hbits := tag.bits_lt
  have hone : ¬(8 * 31 + tag.bits) / 8 % 2 = 0 := by omega
  have htwo : ¬(8 * 31 + tag.bits) / 16 % 2 = 0 := by omega
  have hform : ¬(8 * 31 + tag.bits) / 32 < 7 := by omega
  simp only [read, toNat_lead (show 31 < 32 by decide), Tag.ofBits_add, if_neg hone, if_neg htag,
    if_neg htwo, if_neg hform]
  cases read (offset + 1) rest with
  | error e => rfl
  | ok found => rfl

end Leads

/-! ### Digits -/

section Digits

variable (tag : Tag) (offset header : Nat)

theorem payload_of_le {len : Nat} {rest : Bytes} (h : len ≤ rest.length) :
    payload tag offset header len rest =
      if isInt64 (number tag (rest.take len)) then
        .ok (⟨tag, number tag (rest.take len)⟩, header + len)
      else .error (.overflow offset) := by
  have hholds : holds len rest = true := holds_iff.mpr h
  simp only [payload, if_pos hholds]
  rfl

theorem payload_of_lt {len : Nat} {rest : Bytes} (h : rest.length < len) :
    payload tag offset header len rest = .error (.truncated offset) := by
  have hholds : ¬holds len rest = true := by
    rw [holds_iff]
    omega
  simp only [payload, if_neg hholds]

theorem payload_append (digits suf : Bytes) :
    payload tag offset header digits.length (digits ++ suf) =
      if isInt64 (number tag digits) then
        .ok (⟨tag, number tag digits⟩, header + digits.length)
      else .error (.overflow offset) := by
  rw [payload_of_le _ _ _ (by simp), List.take_left]

end Digits

/-! ### Every form is read -/

mutual

theorem Written.read_append : ∀ {tag : Tag} {v : Int} {w : Bytes}, Written tag v w →
    ∀ (offset : Nat) (suf : Bytes), read offset (w ++ suf) = .ok (⟨tag, v⟩, w.length)
  | tag, _, _, .one hv, offset, suf => read_one tag offset suf hv
  | _, _, _, @Written.two _ n htag hv, offset, suf => by
    have hlow : (UInt8.ofNat (n % 256)).toNat = n % 256 := by
      rw [UInt8.toNat_ofNat']
      omega
    have hvalue : n / 256 * 256 + n % 256 = n := by omega
    have hread := read_two offset suf htag (show n / 256 < 8 by omega) (UInt8.ofNat (n % 256))
    rw [hlow, hvalue] at hread
    exact hread
  | _, _, _, @Written.digits _ _ digits htag hhead hfits, offset, suf => by
    have hrest := hhead.read_append htag offset (digits ++ suf)
    rw [List.append_assoc, hrest, payload_append, if_pos hfits, List.length_append]

theorem Head.read_append : ∀ {tag : Tag} {len : Nat} {head : Bytes}, Head tag len head →
    tag ≠ .extended → ∀ (offset : Nat) (rest : Bytes),
    read offset (head ++ rest) = payload tag offset head.length len rest
  | _, _, _, .short hmin hmax, htag, offset, rest => read_short offset rest htag hmin hmax
  | _, _, _, .long hsize, htag, offset, rest => by
    have hinner := hsize.read_append (offset + 1) rest
    rw [List.cons_append, read_long offset _ htag, hinner, ok_bind, if_pos rfl]
    simp only [Int.toNat_natCast, List.drop_left, List.length_cons, Nat.add_comm 1]

end

/-! ### A form that is cut off -/

mutual

theorem Written.read_take : ∀ {tag : Tag} {v : Int} {w : Bytes}, Written tag v w →
    ∀ (offset : Nat) {k : Nat}, k < w.length →
    ∃ place, read offset (w.take k) = .error (.truncated place)
  | _, _, _, .one _, offset, 0, _ => ⟨offset, rfl⟩
  | _, _, _, .two _ _, offset, 0, _ => ⟨offset, rfl⟩
  | _, _, _, .two htag hv, offset, 1, _ => ⟨offset, read_two_cut offset htag (by omega)⟩
  | _, _, _, @Written.digits tag head digits htag hhead hfits, offset, k, hk => by
    by_cases hcut : k < head.length
    · have hread := hhead.read_take htag offset hcut
      rw [List.take_append_of_le_length (Nat.le_of_lt hcut)]
      exact hread
    · have hshort : (digits.take (k - head.length)).length < digits.length := by
        rw [List.length_append] at hk
        rw [List.length_take]
        omega
      refine ⟨offset, ?_⟩
      rw [List.take_append, List.take_of_length_le (Nat.le_of_not_lt hcut),
        hhead.read_append htag, payload_of_lt _ _ _ hshort]

theorem Head.read_take : ∀ {tag : Tag} {len : Nat} {head : Bytes}, Head tag len head →
    tag ≠ .extended → ∀ (offset : Nat) {k : Nat}, k < head.length →
    ∃ place, read offset (head.take k) = .error (.truncated place)
  | _, _, _, _, _, offset, 0, _ => ⟨offset, rfl⟩
  | _, _, _, .long hsize, htag, offset, k + 1, hk => by
    obtain ⟨place, hread⟩ := hsize.read_take (offset + 1) (Nat.lt_of_succ_lt_succ hk)
    refine ⟨place, ?_⟩
    rw [List.take_succ_cons, read_long offset _ htag, hread, error_bind]

end

/-! ### Nothing else is read -/

theorem written_of_payload {tag : Tag} {offset len : Nat} {head rest : Bytes} {c : Compact}
    {n : Nat} (htag : tag ≠ .extended) (hhead : Head tag len head)
    (h : payload tag offset head.length len rest = .ok (c, n)) :
    ∃ w suf, head ++ rest = w ++ suf ∧ n = w.length ∧ Written c.tag c.value w := by
  by_cases hlen : len ≤ rest.length
  · rw [payload_of_le _ _ _ hlen] at h
    split at h
    next hfits =>
      cases h
      have hdigits : (rest.take len).length = len := List.length_take_of_le hlen
      refine ⟨head ++ rest.take len, rest.drop len, ?_, ?_, ?_⟩
      · rw [List.append_assoc, List.take_append_drop]
      · rw [List.length_append, hdigits]
      · exact .digits htag (hdigits.symm ▸ hhead) hfits
    · cases h
  · rw [payload_of_lt _ _ _ (by omega)] at h
    cases h

/-- The kind of an extended operand has one form only. -/
theorem not_extended_of_read {k : Nat} (hk : k < 32) (hodd : k % 2 = 1) {tag : Tag} {offset : Nat}
    {rest : Bytes} {found : Compact × Nat} (h : read offset (lead k tag :: rest) = .ok found) :
    tag ≠ .extended := by
  rintro rfl
  have hbits : Tag.extended.bits = 7 := rfl
  have hone : ¬(8 * k + Tag.extended.bits) / 8 % 2 = 0 := by omega
  simp only [read, toNat_lead hk, Tag.ofBits_add, if_neg hone, if_true] at h
  cases h

theorem written_of_read {offset : Nat} {bs : Bytes} {c : Compact} {n : Nat}
    (h : read offset bs = .ok (c, n)) :
    ∃ w suf, bs = w ++ suf ∧ n = w.length ∧ Written c.tag c.value w := by
  induction bs generalizing offset c n with
  | nil => cases h
  | cons b rest ih =>
    obtain ⟨tag, hform⟩ := eq_lead b
    rcases hform with ⟨v, hv, rfl⟩ | ⟨high, hhigh, rfl⟩ | ⟨len, hmin, hmax, rfl⟩ | rfl
    · rw [read_one tag offset rest hv] at h
      cases h
      exact ⟨_, rest, rfl, rfl, .one hv⟩
    · have htag := not_extended_of_read (by omega) (by omega) h
      cases rest with
      | nil =>
        rw [read_two_cut offset htag hhigh] at h
        cases h
      | cons low suf =>
        have hl := low.toNat_lt
        rw [read_two offset suf htag hhigh] at h
        cases h
        have hwritten : Written tag _ _ :=
          .two htag (show high * 256 + low.toNat < 2048 by omega)
        have hdiv : (high * 256 + low.toNat) / 256 = high := by omega
        have hmod : (high * 256 + low.toNat) % 256 = low.toNat := by omega
        rw [hdiv, hmod, UInt8.ofNat_toNat] at hwritten
        exact ⟨_, suf, rfl, rfl, hwritten⟩
    · have htag := not_extended_of_read (by omega) (by omega) h
      rw [read_short offset rest htag hmin hmax] at h
      exact written_of_payload htag (.short hmin hmax) h
    · have htag := not_extended_of_read (by omega) (by omega) h
      rw [read_long offset rest htag] at h
      obtain ⟨⟨inner, used⟩, hinner, h⟩ := bind_eq_ok h
      split at h
      next hunsigned =>
        -- The size is a form itself, so what it announces is a number of digits.
        have hnn := (wellRead_of_read hinner).nonneg (by rw [hunsigned]; decide)
        obtain ⟨size, more, rfl, rfl, hsize⟩ := ih hinner
        rw [hunsigned, ← Int.toNat_of_nonneg hnn] at hsize
        rw [List.drop_left, Nat.add_comm 1] at h
        exact written_of_payload htag (.long hsize) h
      · cases h

/-! ### What is written to be read -/

theorem written_encode {tag : Tag} {v : Int} (h : tag.Admits v) : Written tag v (encode tag v) := by
  obtain ⟨w, suf, hsplit, hlength, hw⟩ := written_of_read (read_encode h 0 [])
  rw [List.append_nil] at hsplit
  have hsuf : suf.length = 0 := by
    have htotal := congrArg List.length hsplit
    rw [List.length_append] at htotal
    omega
  rw [List.eq_nil_of_length_eq_zero hsuf, List.append_nil] at hsplit
  rwa [hsplit]

theorem delimits_next {tag : Tag} {v : Int} (h : tag.Admits v) :
    Cursor.Delimits next (encode tag v) ⟨tag, v⟩ where
  reads := reads_next h
  cut pos k hk := by
    obtain ⟨place, hread⟩ := (written_encode h).read_take pos hk
    exact ⟨place, by simp only [next, hread]⟩

/-! ### Digits of any length -/

/-- A number in digits is read exactly or does not fit: wherever a head and its digits stand, the
answer is the number that the digits hold, if it is one of 64 bits, and an overflow at the first
byte if and only if it is not. The program that drops repeats of the sign and gathers the digits
that are left in a word of 64 bits comes to the same. -/
theorem decode_digits_or_overflow (tag : Tag) (htag : tag ≠ .extended)
    (pre head digits suf : Bytes) (hhead : Head tag digits.length head) :
    let v : Int := if tag = .integer then toIntBE digits else toNatBE digits
    let data := pre ++ head ++ digits ++ suf
    (-(2 ^ 63) ≤ v ∧ v ≤ 2 ^ 63 - 1 →
      decode data pre.length = .ok (⟨tag, v⟩, head.length + digits.length)) ∧
    (decode data pre.length = .error (.overflow pre.length) ↔ ¬(-(2 ^ 63) ≤ v ∧ v ≤ 2 ^ 63 - 1)) ∧
    (data.length < 2 ^ 63 →
      Positional.decode data (data.length + 1) pre.length =
        Positional.returned (decode data pre.length)) := by
  intro v data
  have hdecode : decode data pre.length =
      if isInt64 v then .ok (⟨tag, v⟩, head.length + digits.length)
      else .error (.overflow pre.length) := by
    have hdrop : data.drop pre.length = head ++ (digits ++ suf) := by
      simp only [data, List.append_assoc, List.drop_left]
    rw [decode, hdrop, hhead.read_append htag, payload_append]
    rfl
  have hfits : isInt64 v = true ↔ -(2 ^ 63) ≤ v ∧ v ≤ 2 ^ 63 - 1 := by
    rw [isInt64_iff]
    omega
  refine ⟨?_, ?_, ?_⟩
  · intro hv
    rw [hdecode, if_pos (hfits.mpr hv)]
  · rw [hdecode, ← hfits]
    by_cases hv : isInt64 v = true <;> simp [hv]
  · intro hlen
    exact Positional.decode_eq hlen (by omega)

-- The least number of 64 bits and the one below it, both in nine digits: without the repeat of the
-- sign, the second looks like a number that is not negative.
theorem decode_digits_or_overflow_least :
    Head .integer 9 [0xf9, 0x00] ∧
    decode ([0x2a] ++ [0xf9, 0x00] ++ [0xff, 0x80, 0, 0, 0, 0, 0, 0, 0] ++ [0x07]) 1 =
      .ok (⟨.integer, -(2 ^ 63)⟩, 11) ∧
    decode ([0x2a] ++ [0xf9, 0x00] ++ [0xff, 0x7f, 255, 255, 255, 255, 255, 255, 255] ++ [0x07]) 1 =
      .error (.overflow 1) := by
  have hhead : Head .integer 9 [0xf9, 0x00] := .long (n := 0) (.one (v := 0) (by decide))
  have hleast := decode_digits_or_overflow .integer (by decide) [0x2a] [0xf9, 0x00]
    [0xff, 0x80, 0, 0, 0, 0, 0, 0, 0] [0x07] hhead
  have hbelow := decode_digits_or_overflow .integer (by decide) [0x2a] [0xf9, 0x00]
    [0xff, 0x7f, 255, 255, 255, 255, 255, 255, 255] [0x07] hhead
  have hvalue : toIntBE [0xff, 0x80, 0, 0, 0, 0, 0, 0, 0] = -(2 ^ 63) := by decide
  have hvalue' : toIntBE [0xff, 0x7f, 255, 255, 255, 255, 255, 255, 255] = -(2 ^ 63) - 1 := by
    decide
  simp only [if_true, hvalue] at hleast
  simp only [if_true, hvalue'] at hbelow
  exact ⟨hhead, hleast.1 (by decide), hbelow.2.1.mpr (by decide)⟩

/-! ### Where a form ends -/

/-- A compact number marks its own end: it takes at least one byte and none past the end of the
data, the same bytes hold the same number wherever they stand, and data that break off anywhere
inside them are cut short. -/
theorem decode_self_delimiting (data : Bytes) (offset : Nat) (c : Compact) (n : Nat)
    (h : decode data offset = .ok (c, n)) :
    1 ≤ n ∧ offset + n ≤ data.length ∧
    (∀ (data' : Bytes) (offset' : Nat), (∀ i < n, data'[offset' + i]? = data[offset + i]?) →
      decode data' offset' = .ok (c, n)) ∧
    ∀ k < n, ∃ place, decode (data.take (offset + k)) offset = .error (.truncated place) := by
  have hwell := wellRead_of_read h
  have hpos := hwell.pos
  have hle := hwell.le
  rw [List.length_drop] at hle
  obtain ⟨w, suf, hdata, rfl, hw⟩ := written_of_read h
  refine ⟨hpos, by omega, ?_, ?_⟩
  · intro data' offset' hagree
    have htake : (data'.drop offset').take w.length = w := by
      calc (data'.drop offset').take w.length = (data.drop offset).take w.length := by
            apply List.ext_getElem?
            intro i
            by_cases hi : i < w.length
            · simp only [List.getElem?_take_of_lt hi, List.getElem?_drop, hagree i hi]
            · simp only [List.getElem?_take_eq_none (Nat.le_of_not_lt hi)]
        _ = w := by rw [hdata, List.take_left]
    rw [decode, ← List.take_append_drop w.length (data'.drop offset'), htake]
    exact hw.read_append offset' _
  · intro k hk
    have hcut : (data.take (offset + k)).drop offset = w.take k := by
      rw [List.drop_take, Nat.add_sub_cancel_left, hdata,
        List.take_append_of_le_length (Nat.le_of_lt hk)]
    rw [decode, hcut]
    exact hw.read_take offset hk

-- A number in nine digits whose length is in two bytes: it is found at another place, and cutting
-- between the bytes of the length leaves no number.
theorem decode_self_delimiting_long :
    let data : Bytes := [0xff, 0xfb, 0x08, 0x00, 0, 0, 0, 0, 0, 0, 0, 0, 42, 0x55]
    decode data 1 = .ok (⟨.x, 42⟩, 12) ∧
    decode (data.drop 1 ++ [0x66]) 0 = .ok (⟨.x, 42⟩, 12) ∧
    ∃ place, decode (data.take 3) 1 = .error (.truncated place) := by
  intro data
  have hsize : Written .unsigned 0 [0x08, 0x00] := .two (v := 0) (by decide) (by decide)
  have hhead : Head .x 9 [0xfb, 0x08, 0x00] := .long hsize
  have hfits : isInt64 (number .x [0, 0, 0, 0, 0, 0, 0, 0, 42]) = true := by decide
  have hwritten := Written.digits (by decide) hhead hfits
  have hdata : decode data 1 = .ok (⟨.x, 42⟩, 12) := hwritten.read_append 1 [0x55]
  obtain ⟨-, -, hsame, hcut⟩ := decode_self_delimiting data 1 ⟨.x, 42⟩ 12 hdata
  exact ⟨hdata, hsame _ _ (by decide), hcut 2 (by decide)⟩

end Compact

end BeamScope
