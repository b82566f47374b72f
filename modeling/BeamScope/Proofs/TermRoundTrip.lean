import BeamScope.Proofs.Bytes
import BeamScope.Proofs.Utf8
import BeamScope.Term.External
import Mathlib.Data.Nat.Digits.Lemmas

/-!
# Serialized terms are read back

Every term that can be written is read back exactly, whatever bytes follow, as long as it nests no
deeper than the reader allows; one that nests deeper is refused for that reason and no other. The
counts in front of lists, tuples and maps are always covered by the bytes that follow, because
every term takes at least its tag byte, so the checks of counts never come first.
-/

namespace BeamScope.Term

open Bytes Text

/-! ### Writing -/

/-- The digits of a magnitude, least significant first, without zeros at the end. -/
def magnitude (m : Nat) : Bytes := (Nat.digits 256 m).map UInt8.ofNat

def encodeInteger (v : Int) : Bytes :=
  if 0 ≤ v ∧ v < 256 then [97, UInt8.ofNat v.toNat]
  else if -(2 ^ 31) ≤ v ∧ v < 2 ^ 31 then 98 :: ofIntBE 4 v
  else
    110 :: UInt8.ofNat (magnitude v.natAbs).length :: (if v < 0 then 1 else 0) ::
      magnitude v.natAbs

/-- An atom, with its length in one byte or in two. -/
def encodeAtom (name : String) : Bytes :=
  if (Utf8.encode name).length < 256 then
    119 :: (ofNatBE 1 (Utf8.encode name).length ++ Utf8.encode name)
  else 118 :: (ofNatBE 2 (Utf8.encode name).length ++ Utf8.encode name)

def tupleHead (n : Nat) : Bytes := if n < 256 then [104, UInt8.ofNat n] else 105 :: ofNatBE 4 n

def listHead (n : Nat) : Bytes := 108 :: ofNatBE 4 n

def mapHead (n : Nat) : Bytes := 116 :: ofNatBE 4 n

mutual

/-- The bytes of a term behind the version byte. -/
def encode : Term → Bytes
  | .integer v => encodeInteger v
  | .atom name => encodeAtom name
  | .float bits => 70 :: ofNatBE 8 bits.toNat
  | .binary bs => 109 :: (ofNatBE 4 bs.length ++ bs)
  | .nil => [106]
  | .tuple items => tupleHead items.length ++ encodeAll items
  | .list items => listHead items.length ++ encodeAll items ++ [106]
  | .improperList items tail => listHead items.length ++ encodeAll items ++ encode tail
  | .map pairs => mapHead pairs.length ++ encodePairs pairs
  | .other _ => []

def encodeAll : List Term → Bytes
  | [] => []
  | t :: ts => encode t ++ encodeAll ts

def encodePairs : List (Term × Term) → Bytes
  | [] => []
  | (k, v) :: rest => encode k ++ encode v ++ encodePairs rest

end

def isNil : Term → Bool
  | .nil => true
  | _ => false

mutual

/-- Whether a term can be written: its numbers and counts fit their fields, and an improper list
does not end in the empty list. -/
def writable : Term → Bool
  | .integer v => isInt64 v
  | .atom name => decide ((Utf8.encode name).length < 65536)
  | .float _ => true
  | .binary bs => isUInt32 bs.length
  | .nil => true
  | .tuple items => isUInt32 items.length && writableAll items
  | .list items => isUInt32 items.length && writableAll items
  | .improperList items tail =>
    isUInt32 items.length && writableAll items && !tail.isNil && writable tail
  | .map pairs => isUInt32 pairs.length && writablePairs pairs
  | .other _ => false

def writableAll : List Term → Bool
  | [] => true
  | t :: ts => writable t && writableAll ts

def writablePairs : List (Term × Term) → Bool
  | [] => true
  | (k, v) :: rest => writable k && writable v && writablePairs rest

end

mutual

/-- How deep a term nests: what has no children has depth 0; the end of a list is a child of it. -/
def depth : Term → Nat
  | .list items => 1 + depthAll items
  | .improperList items tail => 1 + max (depthAll items) (depth tail)
  | .tuple items => if items.isEmpty then 0 else 1 + depthAll items
  | .map pairs => if pairs.isEmpty then 0 else 1 + depthPairs pairs
  | _ => 0

def depthAll : List Term → Nat
  | [] => 0
  | t :: ts => max (depth t) (depthAll ts)

def depthPairs : List (Term × Term) → Nat
  | [] => 0
  | (k, v) :: rest => max (max (depth k) (depth v)) (depthPairs rest)

end

/-! ### One tag at a time

What `read` does at each tag that is written, with the step down to a child under a name. -/

section Tags

variable (d : Decoder) (fuel levels pos : Nat) (rest : Bytes)

/-- A term one level further down. -/
def readBelow : (levels : Nat) → Cursor → Except Fault (Term × Cursor)
  | 0, c => .error (.termTooDeep c.pos)
  | levels + 1, c => read d fuel levels c

/-- A counted number of terms one level further down. -/
def readItems (n : Nat) (c : Cursor) : Except Fault (List Term × Cursor) := do
  checkCount d n c
  Cursor.many (readBelow d fuel levels) n c

def readPair (c : Cursor) : Except Fault ((Term × Term) × Cursor) := do
  let (key, c) ← readBelow d fuel levels c
  let (value, c) ← readBelow d fuel levels c
  return ((key, value), c)

theorem read_float : read d (fuel + 1) levels ⟨pos, 70 :: rest⟩ = (do
    let (bits, c) ← Cursor.word 8 ⟨pos + 1, rest⟩
    return (.float (UInt64.ofNat bits), c)) := rfl

theorem read_smallInteger (b : UInt8) : read d (fuel + 1) levels ⟨pos, 97 :: b :: rest⟩ =
    .ok (.integer b.toNat, ⟨pos + 2, rest⟩) := rfl

theorem read_integer : read d (fuel + 1) levels ⟨pos, 98 :: rest⟩ = (do
    let (bs, c) ← Cursor.take 4 ⟨pos + 1, rest⟩
    return (.integer (toIntBE bs), c)) := rfl

theorem read_smallBig (n : UInt8) : read d (fuel + 1) levels ⟨pos, 110 :: n :: rest⟩ =
    readBig n.toNat ⟨pos + 2, rest⟩ := rfl

theorem read_largeBig : read d (fuel + 1) levels ⟨pos, 111 :: rest⟩ = (do
    let (n, c) ← Cursor.word 4 ⟨pos + 1, rest⟩
    readBig n c) := rfl

theorem read_smallAtom : read d (fuel + 1) levels ⟨pos, 119 :: rest⟩ =
    readAtom 1 true ⟨pos + 1, rest⟩ := rfl

theorem read_atom : read d (fuel + 1) levels ⟨pos, 118 :: rest⟩ =
    readAtom 2 true ⟨pos + 1, rest⟩ := rfl

theorem read_binary : read d (fuel + 1) levels ⟨pos, 109 :: rest⟩ = (do
    let (n, c) ← Cursor.word 4 ⟨pos + 1, rest⟩
    let (bs, c) ← c.take n
    return (.binary bs, c)) := rfl

theorem read_smallTuple (n : UInt8) : read d (fuel + 1) levels ⟨pos, 104 :: n :: rest⟩ = (do
    let (items, c) ← readItems d fuel levels n.toNat ⟨pos + 2, rest⟩
    return (.tuple items, c)) := by
  cases levels <;> rfl

theorem read_tuple : read d (fuel + 1) levels ⟨pos, 105 :: rest⟩ = (do
    let (n, c) ← Cursor.word 4 ⟨pos + 1, rest⟩
    let (items, c) ← readItems d fuel levels n c
    return (.tuple items, c)) := by
  cases levels <;> rfl

theorem read_list : read d (fuel + 1) levels ⟨pos, 108 :: rest⟩ = (do
    let (n, c) ← Cursor.word 4 ⟨pos + 1, rest⟩
    let (items, c) ← readItems d fuel levels n c
    let (tail, c) ← readBelow d fuel levels c
    match tail with
    | .nil => return (.list items, c)
    | tail => return (.improperList items tail, c)) := by
  cases levels <;> rfl

theorem read_map : read d (fuel + 1) levels ⟨pos, 116 :: rest⟩ = (do
    let (n, c) ← Cursor.word 4 ⟨pos + 1, rest⟩
    checkCount d (n * 2) c
    let (pairs, c) ← Cursor.many (readPair d fuel levels) n c
    return (.map pairs, c)) := by
  cases levels <;> rfl

end Tags

/-! ### Terms without children -/

theorem toNatLE_map_ofNat {ds : List Nat} (h : ∀ n ∈ ds, n < 256) :
    toNatLE (ds.map UInt8.ofNat) = Nat.ofDigits 256 ds := by
  induction ds with
  | nil => rfl
  | cons n ds ih =>
    have hn := UInt8.toNat_ofNat_of_lt' (h n (List.mem_cons_self ..))
    have hds := ih fun m hm => h m (List.mem_cons_of_mem _ hm)
    rw [List.map_cons, toNatLE, hn, hds, Nat.ofDigits_cons]

theorem toNatLE_magnitude (m : Nat) : toNatLE (magnitude m) = m := by
  rw [magnitude, toNatLE_map_ofNat fun n hn => Nat.digits_lt_base (by decide) hn,
    Nat.ofDigits_digits]

theorem length_magnitude_le {m k : Nat} (h : m < 256 ^ k) : (magnitude m).length ≤ k := by
  rw [magnitude, List.length_map]
  exact (Nat.digits_length_le_iff (by decide) m).mpr h

theorem bigInteger_magnitude {v : Int} (h : isInt64 v = true) :
    bigInteger ((if v < 0 then (1 : UInt8) else 0) != 0) (magnitude v.natAbs) = .integer v := by
  by_cases hv : v < 0
  · have hm : (-(v.natAbs : Int)) = v := by omega
    have hs : ((1 : UInt8) != 0) = true := by decide
    simp only [bigInteger, toNatLE_magnitude, if_pos hv, hs, if_true, hm, h]
  · have hm : ((v.natAbs : Nat) : Int) = v := by omega
    have hs : ((0 : UInt8) != 0) = false := by decide
    simp only [bigInteger, toNatLE_magnitude, if_neg hv, hs, Bool.false_eq_true, if_false, hm, h,
      if_true]

theorem reads_integer (d : Decoder) (fuel levels : Nat) {v : Int} (h : isInt64 v = true) :
    Cursor.Reads (read d (fuel + 1) levels) (encodeInteger v) (.integer v) := by
  intro pos suf
  unfold encodeInteger
  split
  · rename_i hs
    have hb := UInt8.toNat_ofNat_of_lt' (show v.toNat < 256 by omega)
    have hv : ((v.toNat : Nat) : Int) = v := by omega
    simp only [List.cons_append, List.nil_append, read_smallInteger, hb, hv, List.length_cons,
      List.length_nil]
  · split
    · rename_i hm
      have hv : toIntBE (ofIntBE 4 v) = v := toIntBE_ofIntBE 3 (by omega) (by omega)
      simp only [List.cons_append, read_integer, Cursor.reads_take (length_ofIntBE 4 v) _ _,
        ok_bind, hv, List.length_cons, Nat.add_assoc, Nat.add_comm 1]
      rfl
    · have hr : -(2 ^ 63) ≤ v ∧ v < 2 ^ 63 := by
        simpa [isInt64] using h
      have hlen : (magnitude v.natAbs).length ≤ 8 := length_magnitude_le (by omega)
      have hb := UInt8.toNat_ofNat_of_lt' (show (magnitude v.natAbs).length < 256 by omega)
      have hp : pos + 2 + 1 + (magnitude v.natAbs).length =
          pos + ((magnitude v.natAbs).length + 1 + 1 + 1) := by omega
      simp only [List.cons_append, read_smallBig, hb, readBig, Cursor.byte_cons, ok_bind,
        Cursor.reads_take (rfl : (magnitude v.natAbs).length = _) _ _, bigInteger_magnitude h,
        List.length_cons, hp]
      rfl

theorem reads_readAtom {name : String} {width : Nat}
    (h : (Utf8.encode name).length < 256 ^ width) :
    Cursor.Reads (readAtom width true)
      (ofNatBE width (Utf8.encode name).length ++ Utf8.encode name) (.atom name) := by
  intro pos suf
  simp only [readAtom, List.append_assoc, Cursor.reads_word h _ _, ok_bind,
    Cursor.reads_take (rfl : (Utf8.encode name).length = _) _ _, if_true, Utf8.decode?_encode,
    List.length_append, Nat.add_assoc]
  rfl

theorem reads_atom (d : Decoder) (fuel levels : Nat) {name : String}
    (h : (Utf8.encode name).length < 65536) :
    Cursor.Reads (read d (fuel + 1) levels) (encodeAtom name) (.atom name) := by
  intro pos suf
  unfold encodeAtom
  split
  · rename_i hs
    rw [List.cons_append, read_smallAtom, reads_readAtom (by omega), List.length_cons,
      Nat.add_assoc, Nat.add_comm 1]
  · rw [List.cons_append, read_atom, reads_readAtom (by omega), List.length_cons,
      Nat.add_assoc, Nat.add_comm 1]

theorem reads_float (d : Decoder) (fuel levels : Nat) (bits : UInt64) :
    Cursor.Reads (read d (fuel + 1) levels) (70 :: ofNatBE 8 bits.toNat) (.float bits) := by
  intro pos suf
  have hb : bits.toNat < 256 ^ 8 := bits.toNat_lt
  simp only [List.cons_append, read_float, Cursor.reads_word hb _ _, ok_bind, UInt64.ofNat_toNat,
    List.length_cons, Nat.add_assoc, Nat.add_comm 1]
  rfl

theorem reads_binary (d : Decoder) (fuel levels : Nat) {bs : Bytes}
    (h : isUInt32 bs.length = true) :
    Cursor.Reads (read d (fuel + 1) levels) (109 :: (ofNatBE 4 bs.length ++ bs)) (.binary bs) := by
  intro pos suf
  have hl : bs.length < 256 ^ 4 := by simpa [isUInt32] using h
  simp only [List.cons_append, read_binary, List.append_assoc, Cursor.reads_word hl _ _, ok_bind,
    Cursor.reads_take (rfl : bs.length = _) _ _, List.length_cons, List.length_append,
    Nat.add_assoc, Nat.add_comm 1]
  rfl

theorem reads_nil (d : Decoder) (fuel levels : Nat) :
    Cursor.Reads (read d (fuel + 1) levels) [106] .nil := by
  intro pos suf
  rfl

/-! ### Counts -/

/-- Every term begins with a tag, which is never the mark of a compressed term. -/
theorem encode_eq_cons {t : Term} (h : writable t = true) :
    ∃ tag bs, encode t = tag :: bs ∧ tag ≠ compressedMark := by
  cases t with
  | integer v =>
    simp only [encode, encodeInteger]
    split
    · exact ⟨_, _, rfl, by decide⟩
    · split <;> exact ⟨_, _, rfl, by decide⟩
  | atom name =>
    simp only [encode, encodeAtom]
    split <;> exact ⟨_, _, rfl, by decide⟩
  | tuple items =>
    simp only [encode, tupleHead]
    split <;> exact ⟨_, _, rfl, by decide⟩
  | other text => simp [writable] at h
  | _ => exact ⟨_, _, rfl, by decide⟩

theorem length_encode_pos {t : Term} (h : writable t = true) : 0 < (encode t).length := by
  obtain ⟨tag, bs, he, -⟩ := encode_eq_cons h
  rw [he]
  exact Nat.succ_pos _

theorem length_tupleHead_pos (n : Nat) : 0 < (tupleHead n).length := by
  unfold tupleHead
  split <;> exact Nat.succ_pos _

theorem length_le_encodeAll {ts : List Term} (h : writableAll ts = true) :
    ts.length ≤ (encodeAll ts).length := by
  induction ts with
  | nil => exact Nat.le_refl _
  | cons t ts ih =>
    simp only [writableAll, Bool.and_eq_true] at h
    have ht := length_encode_pos h.1
    have hts := ih h.2
    simp only [encodeAll, List.length_cons, List.length_append]
    omega

theorem length_le_encodePairs {ps : List (Term × Term)} (h : writablePairs ps = true) :
    ps.length * 2 ≤ (encodePairs ps).length := by
  induction ps with
  | nil => exact Nat.le_refl _
  | cons p ps ih =>
    obtain ⟨k, v⟩ := p
    simp only [writablePairs, Bool.and_eq_true] at h
    have hk := length_encode_pos h.1.1
    have hv := length_encode_pos h.1.2
    have hps := ih h.2
    simp only [encodePairs, List.length_cons, List.length_append]
    omega

theorem checkCount_append (d : Decoder) {n : Nat} {bs : Bytes} (h : n ≤ bs.length) (pos : Nat)
    (suf : Bytes) : checkCount d n ⟨pos, bs ++ suf⟩ = .ok () := by
  have hh : holds n (bs ++ suf) = true := by
    rw [holds_iff, List.length_append]
    omega
  simp only [checkCount, hh, Bool.not_true, Bool.and_false, Bool.false_eq_true, if_false]

theorem lt_of_isUInt32 {n : Nat} (h : isUInt32 n = true) : n < 256 ^ 4 := by
  simpa [isUInt32] using h

theorem read_tupleHead (d : Decoder) (fuel levels : Nat) {n : Nat} (h : isUInt32 n = true)
    (pos : Nat) (rest : Bytes) :
    read d (fuel + 1) levels ⟨pos, tupleHead n ++ rest⟩ = (do
      let (items, c) ← readItems d fuel levels n ⟨pos + (tupleHead n).length, rest⟩
      return (.tuple items, c)) := by
  unfold tupleHead
  split
  · rename_i hs
    simp only [List.cons_append, List.nil_append, read_smallTuple, UInt8.toNat_ofNat_of_lt' hs,
      List.length_cons, List.length_nil]
  · simp only [List.cons_append, read_tuple, Cursor.reads_word (lt_of_isUInt32 h) _ _, ok_bind,
      List.length_cons, length_ofNatBE, Nat.add_assoc]

theorem read_listHead (d : Decoder) (fuel levels : Nat) {n : Nat} (h : isUInt32 n = true)
    (pos : Nat) (rest : Bytes) :
    read d (fuel + 1) levels ⟨pos, listHead n ++ rest⟩ = (do
      let (items, c) ← readItems d fuel levels n ⟨pos + (listHead n).length, rest⟩
      let (tail, c) ← readBelow d fuel levels c
      match tail with
      | .nil => return (.list items, c)
      | tail => return (.improperList items tail, c)) := by
  simp only [listHead, List.cons_append, read_list, Cursor.reads_word (lt_of_isUInt32 h) _ _,
    ok_bind, List.length_cons, length_ofNatBE, Nat.add_assoc]

theorem read_mapHead (d : Decoder) (fuel levels : Nat) {n : Nat} (h : isUInt32 n = true)
    (pos : Nat) (rest : Bytes) :
    read d (fuel + 1) levels ⟨pos, mapHead n ++ rest⟩ = (do
      checkCount d (n * 2) ⟨pos + (mapHead n).length, rest⟩
      let (pairs, c) ← Cursor.many (readPair d fuel levels) n ⟨pos + (mapHead n).length, rest⟩
      return (.map pairs, c)) := by
  simp only [mapHead, List.cons_append, read_map, Cursor.reads_word (lt_of_isUInt32 h) _ _,
    ok_bind, List.length_cons, length_ofNatBE, Nat.add_assoc]

/-! ### Within the limit -/

theorem reads_readBelow {d : Decoder} {fuel levels : Nat} {t : Term} {bs : Bytes}
    (hl : 0 < levels) (h : Cursor.Reads (read d fuel (levels - 1)) bs t) :
    Cursor.Reads (readBelow d fuel levels) bs t := by
  obtain ⟨k, rfl⟩ : ∃ k, levels = k + 1 := ⟨levels - 1, by omega⟩
  exact h

theorem reads_readPair {d : Decoder} {fuel levels : Nat} {k v : Term} {bs bs' : Bytes}
    (hk : Cursor.Reads (readBelow d fuel levels) bs k)
    (hv : Cursor.Reads (readBelow d fuel levels) bs' v) :
    Cursor.Reads (readPair d fuel levels) (bs ++ bs') (k, v) := by
  intro pos suf
  simp only [readPair, List.append_assoc, hk _ _, hv _ _, ok_bind, List.length_append,
    Nat.add_assoc]
  rfl

theorem readItems_encodeAll (d : Decoder) (fuel levels : Nat) {ts : List Term}
    (h : writableAll ts = true) (pos : Nat) (suf : Bytes) :
    readItems d fuel levels ts.length ⟨pos, encodeAll ts ++ suf⟩ =
      Cursor.many (readBelow d fuel levels) ts.length ⟨pos, encodeAll ts ++ suf⟩ := by
  rw [readItems, checkCount_append d (length_le_encodeAll h)]
  rfl

/-- A list is read if its elements and what stands at its end are. -/
theorem reads_list {d : Decoder} {fuel levels : Nat} {ts : List Term} {tail : Term} {bs : Bytes}
    (hn : isUInt32 ts.length = true) (hw : writableAll ts = true)
    (hts : Cursor.Reads (Cursor.many (readBelow d fuel levels) ts.length) (encodeAll ts) ts)
    (htail : Cursor.Reads (readBelow d fuel levels) bs tail) :
    Cursor.Reads (read d (fuel + 1) levels) (listHead ts.length ++ encodeAll ts ++ bs)
      (if tail.isNil then .list ts else .improperList ts tail) := by
  intro pos suf
  simp only [List.append_assoc, read_listHead d fuel levels hn, readItems_encodeAll d fuel levels hw,
    hts _ _, ok_bind, htail _ _, List.length_append, Nat.add_assoc]
  cases tail <;> rfl

mutual

theorem reads_read (d : Decoder) : (t : Term) → (fuel levels : Nat) → writable t = true →
    (encode t).length ≤ fuel → depth t ≤ levels → Cursor.Reads (read d fuel levels) (encode t) t
  | t, 0, levels => by
    intro h hf
    have hp := length_encode_pos h
    omega
  | .integer v, fuel + 1, levels => by
    intro h _ _
    exact reads_integer d fuel levels h
  | .atom name, fuel + 1, levels => by
    intro h _ _
    simp only [writable, decide_eq_true_eq] at h
    exact reads_atom d fuel levels h
  | .float bits, fuel + 1, levels => by
    intro _ _ _
    exact reads_float d fuel levels bits
  | .binary bs, fuel + 1, levels => by
    intro h _ _
    exact reads_binary d fuel levels h
  | .nil, fuel + 1, levels => by
    intro _ _ _
    exact reads_nil d fuel levels
  | .tuple items, fuel + 1, levels => by
    intro h hf hd pos suf
    simp only [writable, Bool.and_eq_true] at h
    simp only [encode, List.length_append] at hf
    have hhead := length_tupleHead_pos items.length
    have hne : items ≠ [] → depthAll items < levels := by
      intro hitems
      simp only [depth, List.isEmpty_iff, if_neg hitems] at hd
      omega
    have hts := reads_items d items fuel levels h.2 (by omega) hne
    simp only [encode, List.append_assoc, read_tupleHead d fuel levels h.1,
      readItems_encodeAll d fuel levels h.2, hts _ _, ok_bind, List.length_append, Nat.add_assoc]
    rfl
  | .list items, fuel + 1, levels => by
    intro h hf hd
    simp only [writable, Bool.and_eq_true] at h
    simp only [encode, listHead, List.length_append, List.length_cons] at hf
    simp only [depth] at hd
    have hts := reads_items d items fuel levels h.2 (by omega) (by omega)
    obtain ⟨fuel, rfl⟩ : ∃ k, fuel = k + 1 := ⟨fuel - 1, by omega⟩
    exact reads_list h.1 h.2 hts (reads_readBelow (by omega) (reads_nil d fuel _))
  | .improperList items tail, fuel + 1, levels => by
    intro h hf hd
    simp only [writable, Bool.and_eq_true, Bool.not_eq_true'] at h
    obtain ⟨⟨⟨hn, hw⟩, hnil⟩, htail⟩ := h
    simp only [encode, listHead, List.length_append, List.length_cons] at hf
    simp only [depth] at hd
    have hts := reads_items d items fuel levels hw (by omega) (by omega)
    have htl := reads_read d tail fuel (levels - 1) htail (by omega) (by omega)
    have hl := reads_list hn hw hts (reads_readBelow (by omega) htl)
    rw [hnil] at hl
    exact hl
  | .map pairs, fuel + 1, levels => by
    intro h hf hd pos suf
    simp only [writable, Bool.and_eq_true] at h
    simp only [encode, mapHead, List.length_append, List.length_cons] at hf
    have hne : pairs ≠ [] → depthPairs pairs < levels := by
      intro hpairs
      simp only [depth, List.isEmpty_iff, if_neg hpairs] at hd
      omega
    have hps := reads_pairs d pairs fuel levels h.2 (by omega) hne
    simp only [encode, List.append_assoc, read_mapHead d fuel levels h.1,
      checkCount_append d (length_le_encodePairs h.2), hps _ _, ok_bind, List.length_append,
      Nat.add_assoc]
    rfl
  | .other _, fuel + 1, levels => by simp [writable]

theorem reads_items (d : Decoder) : (ts : List Term) → (fuel levels : Nat) →
    writableAll ts = true → (encodeAll ts).length ≤ fuel → (ts ≠ [] → depthAll ts < levels) →
    Cursor.Reads (Cursor.many (readBelow d fuel levels) ts.length) (encodeAll ts) ts
  | [], fuel, levels => by
    intro _ _ _ pos suf
    rfl
  | t :: ts, fuel, levels => by
    intro h hf hd
    simp only [writableAll, Bool.and_eq_true] at h
    simp only [encodeAll, List.length_append] at hf
    have hd := hd (List.cons_ne_nil _ _)
    simp only [depthAll] at hd
    have ht := reads_readBelow (by omega)
      (reads_read d t fuel (levels - 1) h.1 (by omega) (by omega))
    have hts := reads_items d ts fuel levels h.2 (by omega) (by omega)
    exact Cursor.reads_many_cons ht hts

theorem reads_pairs (d : Decoder) : (ps : List (Term × Term)) → (fuel levels : Nat) →
    writablePairs ps = true → (encodePairs ps).length ≤ fuel →
    (ps ≠ [] → depthPairs ps < levels) →
    Cursor.Reads (Cursor.many (readPair d fuel levels) ps.length) (encodePairs ps) ps
  | [], fuel, levels => by
    intro _ _ _ pos suf
    rfl
  | (k, v) :: ps, fuel, levels => by
    intro h hf hd
    simp only [writablePairs, Bool.and_eq_true] at h
    simp only [encodePairs, List.length_append] at hf
    have hd := hd (List.cons_ne_nil _ _)
    simp only [depthPairs] at hd
    have hk := reads_readBelow (by omega)
      (reads_read d k fuel (levels - 1) h.1.1 (by omega) (by omega))
    have hv := reads_readBelow (by omega)
      (reads_read d v fuel (levels - 1) h.1.2 (by omega) (by omega))
    have hps := reads_pairs d ps fuel levels h.2 (by omega) (by omega)
    exact Cursor.reads_many_cons (reads_readPair hk hv) hps

end

/-! ### Past the limit -/

/-- Wherever `bs` stands and whatever follows it, `read` refuses it because it nests too deep. -/
def TooDeep {α : Type} (read : Cursor → Except Fault (α × Cursor)) (bs : Bytes) : Prop :=
  ∀ pos suf, ∃ offset, read ⟨pos, bs ++ suf⟩ = .error (.termTooDeep offset)

theorem tooDeep_readBelow {d : Decoder} {fuel levels : Nat} {bs : Bytes}
    (h : 0 < levels → TooDeep (read d fuel (levels - 1)) bs) :
    TooDeep (readBelow d fuel levels) bs := by
  cases levels with
  | zero =>
    intro pos suf
    exact ⟨pos, rfl⟩
  | succ k => exact h (Nat.succ_pos _)

/-- A pair is refused for its key, or for its value behind a key that is read. -/
theorem tooDeep_readPair {d : Decoder} {fuel levels : Nat} {k : Term} {bs bs' : Bytes}
    (h : TooDeep (readBelow d fuel levels) bs ∨
      Cursor.Reads (readBelow d fuel levels) bs k ∧ TooDeep (readBelow d fuel levels) bs') :
    TooDeep (readPair d fuel levels) (bs ++ bs') := by
  intro pos suf
  rcases h with hk | ⟨hk, hv⟩
  · obtain ⟨offset, he⟩ := hk pos (bs' ++ suf)
    exact ⟨offset, by simp only [readPair, List.append_assoc, he, error_bind]⟩
  · obtain ⟨offset, he⟩ := hv (pos + bs.length) suf
    exact ⟨offset, by simp only [readPair, List.append_assoc, hk _ _, ok_bind, he, error_bind]⟩

/-- A sequence is refused for its first item, or for the rest behind an item that is read. -/
theorem tooDeep_many {α : Type} {read : Cursor → Except Fault (α × Cursor)} {n : Nat} {a : α}
    {bs bs' : Bytes} (h : TooDeep read bs ∨
      Cursor.Reads read bs a ∧ TooDeep (Cursor.many read n) bs') :
    TooDeep (Cursor.many read (n + 1)) (bs ++ bs') := by
  intro pos suf
  rcases h with ha | ⟨ha, has⟩
  · obtain ⟨offset, he⟩ := ha pos (bs' ++ suf)
    exact ⟨offset, by simp only [Cursor.many, List.append_assoc, he, error_bind]⟩
  · obtain ⟨offset, he⟩ := has (pos + bs.length) suf
    exact ⟨offset, by simp only [Cursor.many, List.append_assoc, ha _ _, ok_bind, he, error_bind]⟩

/-- A list is refused for its elements, or for its end behind elements that are read. -/
theorem tooDeep_list {d : Decoder} {fuel levels : Nat} {ts : List Term} {bs : Bytes}
    (hn : isUInt32 ts.length = true) (hw : writableAll ts = true)
    (h : TooDeep (Cursor.many (readBelow d fuel levels) ts.length) (encodeAll ts) ∨
      Cursor.Reads (Cursor.many (readBelow d fuel levels) ts.length) (encodeAll ts) ts ∧
        TooDeep (readBelow d fuel levels) bs) :
    TooDeep (read d (fuel + 1) levels) (listHead ts.length ++ encodeAll ts ++ bs) := by
  intro pos suf
  simp only [List.append_assoc, read_listHead d fuel levels hn, readItems_encodeAll d fuel levels hw]
  rcases h with hts | ⟨hts, htail⟩
  · obtain ⟨offset, he⟩ := hts (pos + (listHead ts.length).length) (bs ++ suf)
    exact ⟨offset, by simp only [he, error_bind]⟩
  · obtain ⟨offset, he⟩ :=
      htail (pos + (listHead ts.length).length + (encodeAll ts).length) suf
    exact ⟨offset, by simp only [hts _ _, ok_bind, he, error_bind]⟩

mutual

theorem tooDeep_read (d : Decoder) : (t : Term) → (fuel levels : Nat) → writable t = true →
    (encode t).length ≤ fuel → levels < depth t → TooDeep (read d fuel levels) (encode t)
  | t, 0, levels => by
    intro h hf
    have hp := length_encode_pos h
    omega
  | .tuple items, fuel + 1, levels => by
    intro h hf hd pos suf
    simp only [writable, Bool.and_eq_true] at h
    simp only [encode, List.length_append] at hf
    have hhead := length_tupleHead_pos items.length
    have hne : items ≠ [] := by
      rintro rfl
      simp [depth] at hd
    simp only [depth, List.isEmpty_iff, if_neg hne] at hd
    obtain ⟨offset, he⟩ := tooDeep_items d items fuel levels h.2 (by omega) hne (by omega)
      (pos + (tupleHead items.length).length) suf
    refine ⟨offset, ?_⟩
    simp only [encode, List.append_assoc, read_tupleHead d fuel levels h.1,
      readItems_encodeAll d fuel levels h.2, he, error_bind]
  | .list items, fuel + 1, levels => by
    intro h hf hd
    simp only [writable, Bool.and_eq_true] at h
    simp only [encode, listHead, List.length_append, List.length_cons] at hf
    simp only [depth] at hd
    refine tooDeep_list h.1 h.2 ?_
    by_cases hne : items = []
    · -- Without elements only the end of the list is a level down.
      subst hne
      have hz : levels = 0 := by
        simp only [depthAll] at hd
        omega
      refine Or.inr ⟨reads_items d [] fuel levels h.2 (by omega) (absurd rfl), ?_⟩
      exact tooDeep_readBelow fun hl => absurd hl (by omega)
    · exact Or.inl (tooDeep_items d items fuel levels h.2 (by omega) hne (by omega))
  | .improperList items tail, fuel + 1, levels => by
    intro h hf hd
    simp only [writable, Bool.and_eq_true, Bool.not_eq_true'] at h
    obtain ⟨⟨⟨hn, hw⟩, -⟩, htail⟩ := h
    simp only [encode, listHead, List.length_append, List.length_cons] at hf
    simp only [depth] at hd
    refine tooDeep_list hn hw ?_
    by_cases hdeep : items ≠ [] ∧ levels ≤ depthAll items
    · exact Or.inl (tooDeep_items d items fuel levels hw (by omega) hdeep.1 hdeep.2)
    · have hlt : items ≠ [] → depthAll items < levels := by
        intro hne
        exact Nat.lt_of_not_le fun hle => hdeep ⟨hne, hle⟩
      have htd : levels ≤ depth tail := by
        by_cases hne : items = []
        · subst hne
          simp only [depthAll] at hd
          omega
        · have := hlt hne
          omega
      refine Or.inr ⟨reads_items d items fuel levels hw (by omega) hlt, ?_⟩
      exact tooDeep_readBelow fun hl =>
        tooDeep_read d tail fuel (levels - 1) htail (by omega) (by omega)
  | .map pairs, fuel + 1, levels => by
    intro h hf hd pos suf
    simp only [writable, Bool.and_eq_true] at h
    simp only [encode, mapHead, List.length_append, List.length_cons] at hf
    have hne : pairs ≠ [] := by
      rintro rfl
      simp [depth] at hd
    simp only [depth, List.isEmpty_iff, if_neg hne] at hd
    obtain ⟨offset, he⟩ := tooDeep_pairs d pairs fuel levels h.2 (by omega) hne (by omega)
      (pos + (mapHead pairs.length).length) suf
    refine ⟨offset, ?_⟩
    simp only [encode, List.append_assoc, read_mapHead d fuel levels h.1,
      checkCount_append d (length_le_encodePairs h.2), ok_bind, he, error_bind]
  | .integer _, fuel + 1, levels => by simp [depth]
  | .atom _, fuel + 1, levels => by simp [depth]
  | .float _, fuel + 1, levels => by simp [depth]
  | .binary _, fuel + 1, levels => by simp [depth]
  | .nil, fuel + 1, levels => by simp [depth]
  | .other _, fuel + 1, levels => by simp [depth]

theorem tooDeep_items (d : Decoder) : (ts : List Term) → (fuel levels : Nat) →
    writableAll ts = true → (encodeAll ts).length ≤ fuel → ts ≠ [] → levels ≤ depthAll ts →
    TooDeep (Cursor.many (readBelow d fuel levels) ts.length) (encodeAll ts)
  | [], fuel, levels => by
    intro _ _ hne
    exact absurd rfl hne
  | t :: ts, fuel, levels => by
    intro h hf _ hd
    simp only [writableAll, Bool.and_eq_true] at h
    simp only [encodeAll, List.length_append] at hf
    simp only [depthAll] at hd
    by_cases ht : levels ≤ depth t
    · exact tooDeep_many (a := t) (Or.inl (tooDeep_readBelow fun hl =>
        tooDeep_read d t fuel (levels - 1) h.1 (by omega) (by omega)))
    · -- The first item is read, so one of the others nests too deep; there are such.
      have hne : ts ≠ [] := by
        rintro rfl
        simp only [depthAll] at hd
        omega
      exact tooDeep_many (Or.inr ⟨reads_readBelow (by omega)
        (reads_read d t fuel (levels - 1) h.1 (by omega) (by omega)),
        tooDeep_items d ts fuel levels h.2 (by omega) hne (by omega)⟩)

theorem tooDeep_pairs (d : Decoder) : (ps : List (Term × Term)) → (fuel levels : Nat) →
    writablePairs ps = true → (encodePairs ps).length ≤ fuel → ps ≠ [] →
    levels ≤ depthPairs ps →
    TooDeep (Cursor.many (readPair d fuel levels) ps.length) (encodePairs ps)
  | [], fuel, levels => by
    intro _ _ hne
    exact absurd rfl hne
  | (k, v) :: ps, fuel, levels => by
    intro h hf _ hd
    simp only [writablePairs, Bool.and_eq_true] at h
    simp only [encodePairs, List.length_append] at hf
    simp only [depthPairs] at hd
    have hkey (hk : depth k < levels) : Cursor.Reads (readBelow d fuel levels) (encode k) k :=
      reads_readBelow (by omega) (reads_read d k fuel (levels - 1) h.1.1 (by omega) (by omega))
    by_cases hk : levels ≤ depth k
    · exact tooDeep_many (a := (k, v)) (Or.inl (tooDeep_readPair (k := k) (Or.inl
        (tooDeep_readBelow fun hl =>
          tooDeep_read d k fuel (levels - 1) h.1.1 (by omega) (by omega)))))
    by_cases hv : levels ≤ depth v
    · exact tooDeep_many (a := (k, v)) (Or.inl (tooDeep_readPair (Or.inr ⟨hkey (by omega),
        tooDeep_readBelow fun hl =>
          tooDeep_read d v fuel (levels - 1) h.1.2 (by omega) (by omega)⟩)))
    · have hne : ps ≠ [] := by
        rintro rfl
        simp only [depthPairs] at hd
        omega
      have hval : Cursor.Reads (readBelow d fuel levels) (encode v) v :=
        reads_readBelow (by omega) (reads_read d v fuel (levels - 1) h.1.2 (by omega) (by omega))
      exact tooDeep_many (Or.inr ⟨reads_readPair (hkey (by omega)) hval,
        tooDeep_pairs d ps fuel levels h.2 (by omega) hne (by omega)⟩)

end

/-! ### Whole terms -/

theorem decode_version_encode (d : Decoder) {t : Term} (h : writable t = true) (suf : Bytes) :
    decode d (version :: (encode t ++ suf)) = readAll d ⟨1, encode t ++ suf⟩ := by
  obtain ⟨tag, bs, he, hne⟩ := encode_eq_cons h
  have hv : ¬version ≠ version := fun hn => hn rfl
  simp only [decode, he, List.cons_append, if_neg hv, if_neg hne]

/-- Terms up to the nesting limit of a decoder are read back, with any bytes behind them; deeper
ones are refused as too deep. The limit is 512 for module files. -/
theorem decode_encode_up_to_depth (t : Term) (h : writable t = true) (suf : Bytes) :
    Decoder.standard.maxDepth = 512 ∧ ∀ d : Decoder,
      (depth t ≤ d.maxDepth →
        decode d (version :: (encode t ++ suf)) = .ok ⟨t, suf.length⟩) ∧
      (d.maxDepth < depth t →
        ∃ offset, decode d (version :: (encode t ++ suf)) = .error (.termTooDeep offset)) := by
  have hf : (encode t).length ≤ (encode t ++ suf).length := by
    rw [List.length_append]
    omega
  refine ⟨rfl, fun d => ?_⟩
  rw [decode_version_encode d h]
  constructor
  · intro hd
    have hr := reads_read d t _ d.maxDepth h hf hd 1 suf
    rw [readAll, hr, ok_bind]
    rfl
  · intro hd
    obtain ⟨offset, he⟩ := tooDeep_read d t _ d.maxDepth h hf hd 1 suf
    refine ⟨offset, ?_⟩
    rw [readAll, he, error_bind]

-- The limit is exact: 511 lists around the empty list are read, 512 are not.
theorem decode_encode_at_limit :
    let nested (n : Nat) : Term := Nat.repeat (fun t => .list [t]) n (.list [])
    decode .standard (version :: (encode (nested 511) ++ [0x00])) = .ok ⟨nested 511, 1⟩ ∧
      ∃ offset, decode .standard (version :: (encode (nested 512) ++ [0x00])) =
        .error (.termTooDeep offset) := by
  intro nested
  obtain ⟨-, hread⟩ :=
    decode_encode_up_to_depth (nested 511) (by decide +kernel +zetaReduce) [0x00]
  obtain ⟨-, hdeep⟩ :=
    decode_encode_up_to_depth (nested 512) (by decide +kernel +zetaReduce) [0x00]
  exact ⟨(hread .standard).1 (by decide +kernel +zetaReduce),
    (hdeep .standard).2 (by decide +kernel +zetaReduce)⟩

end BeamScope.Term
