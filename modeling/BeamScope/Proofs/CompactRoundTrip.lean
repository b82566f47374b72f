import BeamScope.Compact
import BeamScope.Proofs.Bytes

/-!
# Compact numbers are read back

`encode` chooses between one byte, two bytes and a trimmed two's complement form; `read` takes the
last one as signed under the integer tag and as unsigned under the others. Both agree because
trimming keeps a sign byte: a number that is not negative never starts with a set bit.
-/

namespace BeamScope

/-- The least number that can stand under a tag: only integer literals have a sign. -/
def Tag.least : Tag → Int
  | .integer => -(2 ^ 63)
  | _ => 0

/-- The first number that is too great for a tag: the kinds of extended operands have four bits. -/
def Tag.bound : Tag → Int
  | .extended => 16
  | _ => 2 ^ 63

def Tag.Admits (tag : Tag) (v : Int) : Prop := tag.least ≤ v ∧ v < tag.bound

instance (tag : Tag) (v : Int) : Decidable (tag.Admits v) := inferInstanceAs (Decidable (_ ∧ _))

theorem Tag.Admits.int64 {tag : Tag} {v : Int} (h : tag.Admits v) :
    -(2 ^ 63) ≤ v ∧ v < 2 ^ 63 := by
  cases tag <;> simp only [Tag.Admits, Tag.least, Tag.bound] at h <;> omega

theorem Tag.Admits.nonneg {tag : Tag} {v : Int} (h : tag.Admits v) (ht : tag ≠ .integer) :
    0 ≤ v := by
  cases tag with
  | integer => exact absurd rfl ht
  | _ => exact h.1

theorem Tag.ofBits_add (tag : Tag) (k : Nat) : Tag.ofBits (8 * k + tag.bits) = tag := by
  have hm : (8 * k + tag.bits) % 8 = tag.bits % 8 := by omega
  rw [Tag.ofBits, hm]
  exact Tag.ofBits_bits tag

namespace Compact

open Bytes

/-! ### The trimmed form -/

theorem length_trimSign (bs : Bytes) (h : 2 ≤ bs.length) :
    2 ≤ (trimSign bs).length ∧ (trimSign bs).length ≤ bs.length := by
  fun_induction trimSign bs with
  | case1 b next more bs _ ih =>
    have hi := ih (by simp)
    simp only [List.length_cons] at hi ⊢
    omega
  | case2 b next more bs _ => simp
  | case3 bs _ => exact ⟨h, Nat.le_refl _⟩

theorem toIntBE_redundant {b next : UInt8} (bs : Bytes) (h : redundant b next = true) :
    toIntBE (b :: next :: bs) = toIntBE (next :: bs) := by
  simp only [redundant, Bool.or_eq_true, Bool.and_eq_true, beq_iff_eq, decide_eq_true_eq] at h
  rcases h with ⟨rfl, hn⟩ | ⟨rfl, hn⟩
  · have hlt : next.toNat < 128 := hn
    have hz : (0 : UInt8).toNat = 0 := rfl
    rw [toIntBE_cons, toIntBE_cons, if_pos hlt, toNatBE_cons, hz, if_pos (by decide), Nat.zero_mul,
      Nat.zero_add]
  · have hge : ¬next.toNat < 128 := Nat.not_lt.mpr hn
    have hf : (0xff : UInt8).toNat = 255 := rfl
    have hp : (256 : Int) ^ (next :: bs).length = 256 * 256 ^ bs.length := by
      rw [List.length_cons, Int.pow_succ']
    have hc : ((256 ^ (next :: bs).length : Nat) : Int) = 256 ^ (next :: bs).length := by
      rw [Int.natCast_pow]
      rfl
    rw [toIntBE_cons, toIntBE_cons, if_neg hge, toNatBE_cons, hf, if_neg (by decide), ← hp]
    omega

theorem toIntBE_trimSign (bs : Bytes) : toIntBE (trimSign bs) = toIntBE bs := by
  fun_induction trimSign bs with
  | case1 b next more bs hr ih => rw [ih, toIntBE_redundant (more :: bs) hr]
  | case2 b next more bs _ => rfl
  | case3 bs _ => rfl

theorem length_shortest (v : Int) : 2 ≤ (shortest v).length ∧ (shortest v).length ≤ 8 := by
  have h := length_trimSign (ofIntBE 8 v) (by rw [length_ofIntBE]; omega)
  rw [length_ofIntBE] at h
  exact h

theorem toIntBE_shortest {v : Int} (h : -(2 ^ 63) ≤ v ∧ v < 2 ^ 63) :
    toIntBE (shortest v) = v := by
  rw [shortest, toIntBE_trimSign]
  exact toIntBE_ofIntBE 7 (by omega) (by omega)

theorem toNatBE_of_nonneg {bs : Bytes} (h : 0 ≤ toIntBE bs) : (toNatBE bs : Int) = toIntBE bs := by
  cases bs with
  | nil => rfl
  | cons b bs =>
    have hlt := toNatBE_lt (b :: bs)
    have hc : ((256 ^ (b :: bs).length : Nat) : Int) = 256 * 256 ^ bs.length := by
      rw [Int.natCast_pow, List.length_cons, Int.pow_succ']
      rfl
    rw [toIntBE_cons] at h ⊢
    by_cases hb : b.toNat < 128
    · rw [if_pos hb]
    · rw [if_neg hb] at h
      omega

/-! ### Reading -/

theorem payload_shortest {tag : Tag} {v : Int} (h : tag.Admits v) (offset header : Nat)
    (suf : Bytes) :
    payload tag offset header (shortest v).length (shortest v ++ suf) =
      .ok (⟨tag, v⟩, header + (shortest v).length) := by
  have hh : holds (shortest v).length (shortest v ++ suf) = true := by
    rw [holds_iff, List.length_append]
    omega
  have hsigned := toIntBE_shortest h.int64
  have hval : (if tag = .integer then toIntBE (shortest v) else (toNatBE (shortest v) : Int)) = v := by
    by_cases ht : tag = .integer
    · rw [if_pos ht, hsigned]
    · rw [if_neg ht, toNatBE_of_nonneg (by rw [hsigned]; exact h.nonneg ht), hsigned]
  have hin : isInt64 v = true := by
    simp only [isInt64, Bool.and_eq_true, decide_eq_true_eq]
    exact h.int64
  simp only [payload, hh, if_true, List.take_left, hval, hin]

-- One lemma for each form of `encode`. In each, the header byte is written as `8 * k + bits`, so that
-- the tag and the bits that choose the form can be read off it.

theorem read_encode_one (tag : Tag) {v : Int} (hv : 0 ≤ v ∧ v < 16) (offset : Nat) (suf : Bytes) :
    read offset (encode tag v ++ suf) = .ok (⟨tag, v⟩, (encode tag v).length) := by
  have hbits := tag.bits_lt
  have hn : (UInt8.ofNat (v.toNat * 16 + tag.bits)).toNat = 8 * (v.toNat * 2) + tag.bits := by
    rw [UInt8.toNat_ofNat']
    omega
  have hform : (8 * (v.toNat * 2) + tag.bits) / 8 % 2 = 0 := by omega
  have hval : (((8 * (v.toNat * 2) + tag.bits) / 16 : Nat) : Int) = v := by omega
  simp only [encode, if_pos hv, List.singleton_append, read, hn, hform, if_true, Tag.ofBits_add,
    hval, List.length_singleton]

theorem read_encode_two {tag : Tag} (hne : tag ≠ .extended) {v : Int} (h16 : ¬(0 ≤ v ∧ v < 16))
    (hv : 0 ≤ v ∧ v < 2048) (offset : Nat) (suf : Bytes) :
    read offset (encode tag v ++ suf) = .ok (⟨tag, v⟩, (encode tag v).length) := by
  have hbits := tag.bits_lt
  have hn : (UInt8.ofNat (v.toNat / 256 * 32 + 8 + tag.bits)).toNat =
      8 * (v.toNat / 256 * 4 + 1) + tag.bits := by
    rw [UInt8.toNat_ofNat']
    omega
  have hlow : (UInt8.ofNat (v.toNat % 256)).toNat = v.toNat % 256 := by
    rw [UInt8.toNat_ofNat']
    omega
  have hlong : ¬(8 * (v.toNat / 256 * 4 + 1) + tag.bits) / 8 % 2 = 0 := by omega
  have hform : (8 * (v.toNat / 256 * 4 + 1) + tag.bits) / 16 % 2 = 0 := by omega
  have hval : (((8 * (v.toNat / 256 * 4 + 1) + tag.bits) / 32 * 256 + v.toNat % 256 : Nat) : Int) =
      v := by omega
  simp only [encode, if_neg h16, if_pos hv, List.cons_append, List.nil_append, read, hn, hlow, hform,
    if_neg hlong, if_neg hne, if_true, Tag.ofBits_add, hval, List.length_cons, List.length_nil]

theorem read_encode_many {tag : Tag} (hne : tag ≠ .extended) {v : Int} (h : tag.Admits v)
    (h16 : ¬(0 ≤ v ∧ v < 16)) (h2048 : ¬(0 ≤ v ∧ v < 2048)) (offset : Nat) (suf : Bytes) :
    read offset (encode tag v ++ suf) = .ok (⟨tag, v⟩, (encode tag v).length) := by
  have hbits := tag.bits_lt
  obtain ⟨hlo, hhi⟩ := length_shortest v
  have hn : (UInt8.ofNat (((shortest v).length - 2) * 32 + 24 + tag.bits)).toNat =
      8 * (((shortest v).length - 2) * 4 + 3) + tag.bits := by
    rw [UInt8.toNat_ofNat']
    omega
  have hlong : ¬(8 * (((shortest v).length - 2) * 4 + 3) + tag.bits) / 8 % 2 = 0 := by omega
  have hform : ¬(8 * (((shortest v).length - 2) * 4 + 3) + tag.bits) / 16 % 2 = 0 := by omega
  have hlen : (8 * (((shortest v).length - 2) * 4 + 3) + tag.bits) / 32 + 2 =
      (shortest v).length := by omega
  have hseven : (8 * (((shortest v).length - 2) * 4 + 3) + tag.bits) / 32 < 7 := by omega
  simp only [encode, if_neg h16, if_neg h2048, List.cons_append, read, hn, if_neg hlong,
    if_neg hform, if_neg hne, if_pos hseven, Tag.ofBits_add, hlen, payload_shortest h,
    List.length_cons, Nat.add_comm 1]

theorem read_encode {tag : Tag} {v : Int} (h : tag.Admits v) (offset : Nat) (suf : Bytes) :
    read offset (encode tag v ++ suf) = .ok (⟨tag, v⟩, (encode tag v).length) := by
  by_cases h16 : 0 ≤ v ∧ v < 16
  · exact read_encode_one tag h16 offset suf
  · have hne : tag ≠ .extended := by
      intro ht
      subst ht
      exact h16 h
    by_cases h2048 : 0 ≤ v ∧ v < 2048
    · exact read_encode_two hne h16 h2048 offset suf
    · exact read_encode_many hne h h16 h2048 offset suf

theorem encode_ne_nil (tag : Tag) (v : Int) : encode tag v ≠ [] := by
  unfold encode
  split
  · simp
  · split <;> simp

theorem reads_next {tag : Tag} {v : Int} (h : tag.Admits v) :
    Cursor.Reads next (encode tag v) ⟨tag, v⟩ := by
  intro pos suf
  simp only [next, read_encode h, Cursor.skip_append rfl]

/-- The compact codec loses nothing in any context: wherever the encoding of an admitted number
stands, it is read back completely and alone. -/
theorem decode_encode_in_context (tag : Tag) (v : Int) (h : tag.Admits v) (pre suf : Bytes) :
    decode (pre ++ encode tag v ++ suf) pre.length = .ok (⟨tag, v⟩, (encode tag v).length) := by
  rw [decode, List.append_assoc, List.drop_left]
  exact read_encode h pre.length suf

-- 0x8000 is the first number whose leading digit has the sign bit set, so a zero byte comes first.
theorem decode_encode_sign_byte :
    Tag.Admits .x 0x8000 ∧
      decode ([0xff] ++ encode .x 0x8000 ++ [0x00]) 1 = .ok (⟨.x, 0x8000⟩, 4) :=
  ⟨by decide, decode_encode_in_context .x 0x8000 (by decide) [0xff] [0x00]⟩

end Compact

end BeamScope
