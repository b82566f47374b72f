import BeamScope.Proofs.Positional.Tables
import BeamScope.Proofs.TermLayout
import BeamScope.Table.Literals

/-!
# Terms by position

A term read at a position, with a count of how deep lists, tuples and maps nest and a number of
calls that may be open at once. The position stays inside the data in every call, since every read
looks before it moves, and a count of items is compared with what is left.

Calls are opened by children and by the three parts of an external function. Only children go
through the nesting limit, so as many calls as there are levels are enough only together with one
for each byte that can mark an external function.
-/

namespace BeamScope.Positional

open Bytes

/-! ### Parts of a term -/

def bytes (data : Bytes) (n pos : Nat) : Checked (Bytes × Nat) := do
  let stop ← orFail (add? pos n) (.truncated pos)
  let bs ← orFail (slice? data pos stop) (.truncated pos)
  return (bs, stop)

def byte (data : Bytes) (pos : Nat) : Checked (UInt8 × Nat) := do
  let (bs, pos) ← bytes data 1 pos
  return (← index bs 0, pos)

/-- A big-endian number of `width` bytes. -/
def number (data : Bytes) (width pos : Nat) : Checked (Nat × Nat) := do
  let (bs, pos) ← bytes data width pos
  return (toNatBE (← digits bs width), pos)

/-- A big-endian number that is copied into a buffer of `width` bytes. -/
def copiedNumber (data : Bytes) (width pos : Nat) : Checked (Nat × Nat) := do
  let (bs, pos) ← bytes data width pos
  return (toNatBE (← filled width bs), pos)

def checkCount (data : Bytes) (n pos : Nat) : Checked Unit := do
  let left ← sub data.length pos
  if left < n then fail (.truncated pos) else .ok ()

def big (data : Bytes) (n pos : Nat) : Checked (Term × Nat) := do
  let (sign, pos) ← byte data pos
  let (magnitude, pos) ← bytes data n pos
  return (Term.bigInteger (sign != 0) magnitude, pos)

def atom (data : Bytes) (width : Nat) (utf8 : Bool) (pos : Nat) : Checked (Term × Nat) := do
  let (n, after) ← number data width pos
  let (bs, after) ← bytes data n after
  if utf8 then
    match Text.Utf8.decode? bs with
    | some name => return (.atom name, after)
    | none => fail (.badUtf8 pos)
  else return (.atom (latin1 bs), after)

def floatText (data : Bytes) (tag : UInt8) (offset pos : Nat) : Checked (Term × Nat) := do
  let (bs, pos) ← bytes data 31 pos
  let text := (Text.Utf8.decodeLossy bs).toList
  let text := Text.trim (Text.dropEndWhile (· == '\x00') text)
  match Decimal.read? text with
  | some bits => return (.float bits, pos)
  | none => fail (.badTerm tag offset)

/-! ### Terms -/

/-- How deep lists, tuples and maps may nest. -/
def maxDepth : Nat := 512

/-- The mark of an external function. -/
def exportMark : UInt8 := 113

section Calls

variable (data : Bytes) (read : (depth pos : Nat) → Checked (Term × Nat)) (depth : Nat)

/-- A child, read by `read` one level further down. -/
def nested (pos : Nat) : Checked (Term × Nat) :=
  if maxDepth ≤ depth then fail (.termTooDeep pos)
  else do
    let depth ← add depth 1
    read depth pos

def children (n pos : Nat) : Checked (List Term × Nat) := do
  checkCount data n pos
  many (nested read depth) n pos

def pair (pos : Nat) : Checked ((Term × Term) × Nat) := do
  let (key, pos) ← nested read depth pos
  let (value, pos) ← nested read depth pos
  return ((key, value), pos)

/-- One term, with the terms inside it read by `read`. -/
def termBody (pos : Nat) : Checked (Term × Nat) := do
  let offset := pos
  let (tag, pos) ← byte data pos
  match tag.toNat with
  | 70 =>
    let (bits, pos) ← copiedNumber data 8 pos
    return (.float (UInt64.ofNat bits), pos)
  | 77 =>
    let (n, pos) ← number data 4 pos
    let (lastBits, pos) ← byte data pos
    let (_, pos) ← bytes data n pos
    let total ← add ((n - 1) * 8) (if n = 0 then 0 else lastBits.toNat)
    return (.other s!"<<_:{total}>>", pos)
  | 97 =>
    let (b, pos) ← byte data pos
    return (.integer b.toNat, pos)
  | 98 =>
    let (bs, pos) ← bytes data 4 pos
    let bs ← digits bs 4
    return (.integer (toIntBE bs), pos)
  | 99 => floatText data tag offset pos
  | 100 => atom data 2 false pos
  | 104 =>
    let (n, pos) ← byte data pos
    let (items, pos) ← children data read depth n.toNat pos
    return (.tuple items, pos)
  | 105 =>
    let (n, pos) ← number data 4 pos
    let (items, pos) ← children data read depth n pos
    return (.tuple items, pos)
  | 106 => return (.nil, pos)
  | 107 =>
    let (n, pos) ← number data 2 pos
    let (bs, pos) ← bytes data n pos
    if bs.isEmpty then return (.nil, pos)
    else return (.list (bs.map fun b => .integer b.toNat), pos)
  | 108 =>
    let (n, pos) ← number data 4 pos
    let (items, pos) ← children data read depth n pos
    let (tail, pos) ← nested read depth pos
    match tail with
    | .nil => return (.list items, pos)
    | tail => return (.improperList items tail, pos)
  | 109 =>
    let (n, pos) ← number data 4 pos
    let (bs, pos) ← bytes data n pos
    return (.binary bs, pos)
  | 110 =>
    let (n, pos) ← byte data pos
    big data n.toNat pos
  | 111 =>
    let (n, pos) ← number data 4 pos
    big data n pos
  | 112 =>
    let (size, pos) ← number data 4 pos
    if size < 4 then fail (.badTerm tag offset)
    else
      let (_, pos) ← bytes data (size - 4) pos
      return (.other "#Fun", pos)
  | 113 =>
    -- The parts stand on the level of the function itself.
    let (module, pos) ← read depth pos
    let (function, pos) ← read depth pos
    let (arity, pos) ← read depth pos
    match module, function, arity with
    | .atom m, .atom f, .integer a => return (.other s!"fun {m}:{f}/{a}", pos)
    | _, _, _ => fail (.badTerm tag offset)
  | 115 => atom data 1 false pos
  | 116 =>
    let (n, pos) ← number data 4 pos
    checkCount data (n * 2) pos
    let (pairs, pos) ← many (pair read depth) n pos
    return (.map pairs, pos)
  | 118 => atom data 2 true pos
  | 119 => atom data 1 true pos
  | _ => fail (.badTerm tag offset)

end Calls

/-- One term, with at most `frames` calls open at once. -/
def term (data : Bytes) : (frames depth pos : Nat) → Checked (Term × Nat)
  | 0, _, _ => .error .exhausted
  | frames + 1, depth, pos => termBody data (term data frames) depth pos

def finish (data : Bytes) (frames pos : Nat) : Checked Term.Decoded := do
  let (t, pos) ← term data frames 0 pos
  let trailing ← sub data.length pos
  return ⟨t, trailing⟩

/-- What a compressed stream holds, by any function that undoes the compression, if it is as long as
announced. -/
def inflate (unzip : Bytes → Option Bytes) (data : Bytes) (size : Nat) : Except Fault Bytes :=
  match unzip data with
  | none => .error .inflateStream
  | some out => if out.length = size then .ok out else .error (.inflatedSize size out.length)

/-- A serialized term, version byte included, with at most `frames` calls open at once. -/
def decodeWithin (unzip : Bytes → Option Bytes) (frames : Nat) (data : Bytes) :
    Checked Term.Decoded :=
  match data with
  | [] => fail (.truncated 0)
  | v :: rest =>
    if v ≠ Term.version then fail (.badTerm v 0)
    else
      match rest with
      | mark :: packed =>
        if mark = Term.compressedMark then do
          let size ← word packed 0
          let packed ← slice packed 4 packed.length
          let inflated ← returned (inflate unzip packed size)
          finish inflated frames 0
        else finish data frames 1
      | [] => finish data frames 1

/-- A serialized term. Positions have 64 bits, so no more than `2 ^ 64` calls can be open. -/
def decodeTerm (unzip : Bytes → Option Bytes) (data : Bytes) : Checked Term.Decoded :=
  decodeWithin unzip (2 ^ 64) data

/-! ### Agreement of the parts -/

theorem length_of_take {c c' : Cursor} {n : Nat} {bs : Bytes} (h : c.take n = .ok (bs, c')) :
    bs.length = n := by
  simp only [Cursor.take] at h
  split at h
  · next hh =>
    cases h
    rw [List.length_take]
    exact Nat.min_eq_left (holds_iff.mp hh)
  · cases h

theorem getElem?_of_byte {data : Bytes} {pos : Nat} {b : UInt8} {c : Cursor}
    (h : (Cursor.ofOffset data pos).byte = .ok (b, c)) : data[pos]? = some b := by
  simp only [Cursor.byte, Cursor.ofOffset] at h
  split at h
  · cases h
  · next rest hdrop =>
    cases h
    rw [← List.head?_drop, hdrop]
    rfl

section Parts

variable {data : Bytes} (hlen : data.length < 2 ^ 63) {pos : Nat} (hpos : pos ≤ data.length)
include hlen hpos

theorem agrees_bytes (n : Nat) :
    Agrees data (pos + n) (bytes data n pos) ((Cursor.ofOffset data pos).take n) := by
  by_cases h : pos + n ≤ data.length
  · simp only [bytes, add?_eq_some (show pos + n < 2 ^ 64 by omega), orFail_some, checked_ok_bind,
      slice?_eq_some (show pos ≤ pos + n by omega) h, Nat.add_sub_cancel_left,
      take_ofOffset_ok h, pure_eq_ok]
    exact Agrees.ok _ (Nat.le_refl _) h
  · have hend : data.length < pos + n := by omega
    rw [take_ofOffset_error hpos hend]
    have hnone (stop : Nat) (hs : stop = pos + n) : slice? data pos stop = none :=
      slice?_eq_none (hs ▸ hend)
    simp only [bytes, add?]
    split
    · simp only [orFail_some, checked_ok_bind, hnone _ rfl, orFail_none, fail_bind]
      exact Agrees.fail _ _
    · simp only [orFail_none, fail_bind]
      exact Agrees.fail _ _

theorem byte_eq_byteAt : byte data pos = byteAt data pos := by
  by_cases h : pos + 1 ≤ data.length
  · have hget : data[pos]? = some data[pos] := List.getElem?_eq_getElem h
    have hone : (data.drop pos).take 1 = [data[pos]] := by
      rw [List.drop_eq_getElem_cons h]
      rfl
    simp only [byte, bytes, add?_eq_some (show pos + 1 < 2 ^ 64 by omega),
      slice?_eq_some (show pos ≤ pos + 1 by omega) h, Nat.add_sub_cancel_left, hone, byteAt, hget,
      add_eq_ok (show pos + 1 < 2 ^ 64 by omega), orFail_some, checked_ok_bind, pure_eq_ok]
    rfl
  · have hget : data[pos]? = none := List.getElem?_eq_none (by omega)
    simp only [byte, bytes, add?_eq_some (show pos + 1 < 2 ^ 64 by omega),
      slice?_eq_none (show data.length < pos + 1 by omega), byteAt, hget, orFail_some, orFail_none,
      checked_ok_bind, fail_bind]

theorem agrees_byte :
    Agrees data (pos + 1) (byte data pos) (Cursor.ofOffset data pos).byte := by
  rw [byte_eq_byteAt hlen hpos]
  exact agrees_byteAt hlen pos

theorem agrees_number (width : Nat) :
    Agrees data (pos + width) (number data width pos) ((Cursor.ofOffset data pos).word width) := by
  refine (agrees_bytes hlen hpos width).bind fun bs after hbs hafter hend => ?_
  simp only [digits_eq_ok (length_of_take hbs), checked_ok_bind, pure_eq_ok]
  exact Agrees.ok _ hafter hend

end Parts

theorem checkCount_eq {data : Bytes} {pos : Nat} (hpos : pos ≤ data.length) {d : Term.Decoder}
    (hd : d.checkCounts = true) (n : Nat) :
    checkCount data n pos = returned (Term.checkCount d n (Cursor.ofOffset data pos)) := by
  simp only [checkCount, sub_eq_ok hpos, checked_ok_bind, Term.checkCount, hd, holds_ofOffset,
    Bool.not_not, Bool.true_and, decide_eq_true_eq]
  split <;> rfl

/-! ### Agreement of terms -/

/-- Where a program stands and where a reader does, not before `least`. -/
def StandsAt (data : Bytes) (least pos : Nat) (c : Cursor) : Prop :=
  c = Cursor.ofOffset data pos ∧ least ≤ pos ∧ pos ≤ data.length

theorem agrees_iff_paired {α : Type} {data : Bytes} {least : Nat} {x : Checked (α × Nat)}
    {r : Except Fault (α × Cursor)} :
    Agrees data least x r ↔ Paired (StandsAt data least) (fun stop e => stop = .fault e) x r := by
  constructor
  · intro h
    cases r with
    | error e =>
      have hx : x = fail e := h
      rw [hx]
      exact .error rfl
    | ok found =>
      obtain ⟨a, c⟩ := found
      obtain ⟨pos, hc, hleast, hpos, rfl⟩ := h
      exact .ok a ⟨hc, hleast, hpos⟩
  · intro h
    cases h with
    | error h =>
      rw [h]
      exact Agrees.fail _ _
    | ok a h =>
      obtain ⟨rfl, hleast, hpos⟩ := h
      exact Agrees.ok a hleast hpos

/-- The fields behind a tag at `offset`, from a position `behind` on. -/
def fieldsAt (data : Bytes) (read : (depth pos : Nat) → Checked (Term × Nat)) (depth : Nat)
    (tag : UInt8) (offset behind : Nat) : Term.Fields Stop Nat where
  badTerm := .fault (.badTerm tag offset)
  badName := .fault (.badUtf8 behind)
  byte := byte data
  take := bytes data
  word := number data
  child := nested read depth
  children := children data read depth
  pairs n pos := do
    checkCount data (n * 2) pos
    many (pair read depth) n pos
  part := read depth

section Layouts

variable (data : Bytes) (read : (depth pos : Nat) → Checked (Term × Nat)) (depth : Nat)

theorem length_of_bytes {n pos after : Nat} {bs : Bytes} (h : bytes data n pos = .ok (bs, after)) :
    bs.length = n := by
  unfold bytes add? at h
  split at h
  · rw [orFail_some, checked_ok_bind] at h
    unfold slice? at h
    split at h
    next hfit =>
      cases h
      rw [List.length_take, List.length_drop]
      omega
    next => cases h
  · cases h

/-- What comes behind bytes may rely on their number. -/
theorem bytes_bind_congr {β : Type} {n pos : Nat} {f g : Bytes × Nat → Checked β}
    (h : ∀ bs after, bs.length = n → f (bs, after) = g (bs, after)) :
    (bytes data n pos >>= f) = (bytes data n pos >>= g) := by
  cases hbytes : bytes data n pos with
  | error stop => rfl
  | ok found => exact h _ _ (length_of_bytes data hbytes)

theorem number_bind_congr {β : Type} {width pos : Nat} {f g : Nat × Nat → Checked β}
    (h : ∀ n after, n < 256 ^ width → f (n, after) = g (n, after)) :
    (number data width pos >>= f) = (number data width pos >>= g) := by
  cases hbytes : bytes data width pos with
  | error stop =>
    rw [number, hbytes]
    rfl
  | ok found =>
    obtain ⟨bs, after⟩ := found
    have hlength := length_of_bytes data hbytes
    have hnumber : number data width pos = .ok (toNatBE bs, after) := by
      simp only [number, hbytes, checked_ok_bind, digits_eq_ok hlength, pure_eq_ok]
    have hlt := toNatBE_lt bs
    rw [hlength] at hlt
    rw [hnumber]
    exact h _ _ hlt

theorem copiedNumber_eq (width pos : Nat) :
    copiedNumber data width pos = number data width pos := by
  apply bytes_bind_congr
  intro bs after hbs
  simp only [filled_eq_ok hbs, digits_eq_ok hbs]

theorem termBody_eq (pos : Nat) :
    termBody data read depth pos = (do
      let (tag, after) ← byte data pos
      (fieldsAt data read depth tag pos after).term tag after) := by
  rw [termBody]
  apply bind_congr
  intro (tag, after)
  unfold Term.Fields.term
  dsimp only
  generalize tag.toNat = k
  -- One case for each tag, in their order; the last one is for all other bytes.
  split
  · rw [copiedNumber_eq]
    rfl
  · apply number_bind_congr
    intro n p hn
    apply bind_congr
    intro (lastBits, p)
    apply bind_congr
    intro (_, p)
    -- The number of bits is computed in 64 bits, from a size of 32.
    have hbits := lastBits.toNat_lt
    have htotal : (n - 1) * 8 + (if n = 0 then 0 else lastBits.toNat) < 2 ^ 64 := by
      split <;> omega
    simp only [add_eq_ok htotal]
    rfl
  · rfl
  · apply bytes_bind_congr
    intro bs p hbs
    simp only [digits_eq_ok hbs]
    rfl
  · symm
    apply (Term.Layout.read_floatText ..).trans
    apply bind_congr
    intro (bs, p)
    dsimp only
    cases Decimal.read? _ <;> rfl
  · symm
    exact Term.Layout.read_name ..
  · rfl
  · rfl
  · rfl
  · symm
    exact bind_congr fun (n, p) => Term.Layout.read_text ..
  · symm
    exact bind_congr fun (n, p) => Term.Layout.read_list ..
  · rfl
  · rfl
  · rfl
  · symm
    exact bind_congr fun (size, p) => Term.Layout.read_oldFunction ..
  · rfl
  · symm
    exact Term.Layout.read_name ..
  · symm
    exact bind_congr fun (n, p) => bind_assoc ..
  · symm
    exact Term.Layout.read_name ..
  · symm
    exact Term.Layout.read_name ..
  · have hexternal : k ≠ 113 := by assumption
    rw [if_neg hexternal]
    simp only [Term.Layout.ofTag, *]
    rfl

end Layouts

theorem agrees_fields {data : Bytes} (hlen : data.length < 2 ^ 63) {d : Term.Decoder}
    (hd : d.checkCounts = true) {read : (depth pos : Nat) → Checked (Term × Nat)}
    {depth levels fuel start : Nat}
    (hbelow : ∀ p, start ≤ p → p ≤ data.length →
      Agrees data p (nested read depth p) (Term.readBelow d fuel levels (Cursor.ofOffset data p)))
    (tag : UInt8) (offset behind : Nat) :
    (fieldsAt data read depth tag offset behind).Alike (StandsAt data start)
      (fun stop e => stop = .fault e) (Term.cursorFields d fuel levels tag offset behind) where
  badTerm := rfl
  badName := rfl
  byte := by
    rintro p _ ⟨rfl, hstart, hp⟩
    exact agrees_iff_paired.mp ((agrees_byte hlen hp).mono (by omega))
  take n := by
    rintro p _ ⟨rfl, hstart, hp⟩
    exact agrees_iff_paired.mp ((agrees_bytes hlen hp n).mono (by omega))
  word width := by
    rintro p _ ⟨rfl, hstart, hp⟩
    exact agrees_iff_paired.mp ((agrees_number hlen hp width).mono (by omega))
  child := by
    rintro p _ ⟨rfl, hstart, hp⟩
    exact agrees_iff_paired.mp ((hbelow p hstart hp).mono hstart)
  children n := by
    rintro p _ ⟨rfl, hstart, hp⟩
    refine agrees_iff_paired.mp (Agrees.mono ?_ hstart)
    exact Agrees.after (checkCount_eq hp hd n) fun _ => agrees_many hbelow n hstart hp
  pairs n := by
    rintro p _ ⟨rfl, hstart, hp⟩
    refine agrees_iff_paired.mp (Agrees.mono ?_ hstart)
    refine Agrees.after (checkCount_eq hp hd (n * 2)) fun _ => ?_
    refine agrees_many (fun q hstart hq => ?_) n hstart hp
    refine (hbelow q hstart hq).bind fun key q' _ hq' hend => ?_
    refine (hbelow q' (by omega) hend).bind fun value last _ hlast hend => ?_
    exact Agrees.ok (key, value) (by omega) hend

/-- One step: if the terms inside a term are read alike, so is the term. The parts of an external
function are asked for only behind its mark. -/
theorem agrees_termBody {data : Bytes} (hlen : data.length < 2 ^ 63) {d : Term.Decoder}
    (hd : d.checkCounts = true) {read : (depth pos : Nat) → Checked (Term × Nat)}
    {depth levels fuel pos : Nat} (hpos : pos ≤ data.length)
    (hbelow : ∀ p, pos + 1 ≤ p → p ≤ data.length →
      Agrees data p (nested read depth p) (Term.readBelow d fuel levels (Cursor.ofOffset data p)))
    (hpart : data[pos]? = some exportMark → ∀ p, pos + 1 ≤ p → p ≤ data.length →
      Agrees data p (read depth p) (Term.read d fuel levels (Cursor.ofOffset data p))) :
    Agrees data (pos + 1) (termBody data read depth pos)
      (Term.read d (fuel + 1) levels (Cursor.ofOffset data pos)) := by
  rw [termBody_eq, Term.read_succ]
  refine (agrees_byte hlen hpos).bind fun tag after hb hafter hend => ?_
  rw [agrees_iff_paired]
  apply (agrees_fields hlen hd hbelow tag pos after).term
  · rintro htag p _ ⟨rfl, hp, hend⟩
    have hmark : data[pos]? = some exportMark := by
      rw [getElem?_of_byte hb, UInt8.toNat_inj.mp (show tag.toNat = exportMark.toNat from htag)]
    exact agrees_iff_paired.mp ((hpart hmark p hp hend).mono hp)
  · exact ⟨rfl, hafter, hend⟩

/-- With a call for each level that is left and one for each mark of an external function, no call
is missing; the bytes that are left are as much fuel as the reader needs. -/
theorem agrees_term {data : Bytes} (hlen : data.length < 2 ^ 63) {d : Term.Decoder}
    (hd : d.checkCounts = true) {frames depth levels fuel pos : Nat} (hpos : pos ≤ data.length)
    (hdepth : depth + levels = maxDepth)
    (hframes : levels + 1 + (data.drop pos).count exportMark ≤ frames)
    (hfuel : data.length - pos ≤ fuel) :
    Agrees data pos (term data frames depth pos)
      (Term.read d fuel levels (Cursor.ofOffset data pos)) := by
  induction frames generalizing depth levels fuel pos with
  | zero => omega
  | succ frames ih =>
    have hmax : maxDepth = 512 := rfl
    have hcount (p : Nat) (hp : pos ≤ p) :
        (data.drop p).count exportMark ≤ (data.drop pos).count exportMark :=
      (List.drop_sublist_drop_left data hp).count_le exportMark
    cases fuel with
    | zero =>
      have hend : data.drop pos = [] := by
        rw [List.drop_eq_nil_iff]
        omega
      have hread : (Cursor.ofOffset data pos).byte = .error (.truncated pos) := by
        simp only [Cursor.byte, Cursor.ofOffset, hend]
      have hbyte : byte data pos = fail (.truncated pos) := by
        have h := agrees_byte hlen hpos
        rwa [hread] at h
      simp only [term, termBody, hbyte, fail_bind]
      exact Agrees.fail _ _
    | succ fuel =>
      refine (agrees_termBody hlen hd hpos ?_ ?_).mono (Nat.le_succ pos)
      · intro p hp hend
        have hc := hcount p (by omega)
        cases levels with
        | zero =>
          rw [nested, if_pos (by omega)]
          exact Agrees.fail _ _
        | succ below =>
          rw [nested, if_neg (by omega), add_eq_ok (by omega)]
          exact ih hend (by omega) (by omega) (by omega)
      · intro hmark p hp hend
        -- The mark that was read is one of those counted, and is not counted again.
        have hone : (data.drop pos).count exportMark =
            (data.drop (pos + 1)).count exportMark + 1 := by
          obtain ⟨hlt, hget⟩ := List.getElem?_eq_some_iff.mp hmark
          rw [List.drop_eq_getElem_cons hlt, hget, List.count_cons_self]
        have hc : (data.drop p).count exportMark ≤ (data.drop (pos + 1)).count exportMark :=
          (List.drop_sublist_drop_left data hp).count_le exportMark
        exact ih hend hdepth (by omega) (by omega)

/-! ### Serialized terms -/

/-- The decoder that `decodeTerm` stands for. -/
def decoder (unzip : Bytes → Option Bytes) : Term.Decoder := ⟨inflate unzip, maxDepth, true⟩

theorem decoder_decompress : decoder Zlib.decompress? = Term.Decoder.standard := rfl

theorem length_of_inflate {unzip : Bytes → Option Bytes} {data out : Bytes} {size : Nat}
    (h : inflate unzip data size = .ok out) : out.length = size := by
  simp only [inflate] at h
  split at h
  · cases h
  · split at h
    · next hsize =>
      cases h
      exact hsize
    · cases h

theorem finish_eq (unzip : Bytes → Option Bytes) {data : Bytes} (hlen : data.length < 2 ^ 63)
    {frames pos : Nat} (hpos : pos ≤ data.length)
    (hframes : maxDepth + 1 + (data.drop pos).count exportMark ≤ frames) :
    finish data frames pos = returned (Term.readAll (decoder unzip) (Cursor.ofOffset data pos)) := by
  have hagrees := agrees_term hlen (show (decoder unzip).checkCounts = true from rfl) hpos
    (Nat.zero_add maxDepth) hframes (Nat.le_of_eq List.length_drop.symm)
  refine hagrees.bind_returned fun t after _ _ hend => ?_
  simp only [sub_eq_ok hend, checked_ok_bind, Cursor.ofOffset, List.length_drop]
  rfl

/-- The bytes that are read as a term: what a compressed one inflates to, or all behind the version
byte. -/
def termBytes (unzip : Bytes → Option Bytes) : Bytes → Bytes
  | [] => []
  | [_] => []
  | _ :: mark :: packed =>
    if mark = Term.compressedMark then
      (inflate unzip (packed.drop 4) (toNatBE (packed.take 4))).toOption.getD []
    else mark :: packed

theorem decodeWithin_eq (unzip : Bytes → Option Bytes) {data : Bytes} (hlen : data.length < 2 ^ 63)
    {frames : Nat} (hframes : maxDepth + 1 + (termBytes unzip data).count exportMark ≤ frames) :
    decodeWithin unzip frames data = returned (Term.decode (decoder unzip) data) := by
  cases data with
  | nil => rfl
  | cons v rest =>
    simp only [decodeWithin, Term.decode]
    by_cases hv : v ≠ Term.version
    · simp only [if_pos hv, returned_error]
    · simp only [if_neg hv]
      cases rest with
      | nil => exact finish_eq unzip hlen (Nat.le_refl _) hframes
      | cons mark packed =>
        rw [termBytes] at hframes
        by_cases hm : mark = Term.compressedMark
        · rw [if_pos hm] at hframes
          simp only [if_pos hm]
          have hp : packed.length < 2 ^ 63 := by
            simp only [List.length_cons] at hlen
            omega
          by_cases h4 : 0 + 4 ≤ packed.length
          · have hsize := toNatBE_take_four_lt packed
            simp only [word_eq_ok hp h4, checked_ok_bind, Cursor.word, take_ofOffset_ok h4,
              slice_to_end (show 4 ≤ packed.length by omega), ok_bind]
            change (returned (inflate unzip (packed.drop 4) (toNatBE (packed.take 4))) >>=
              fun inflated => finish inflated frames 0) =
                returned (inflate unzip (packed.drop 4) (toNatBE (packed.take 4)) >>=
                  fun inflated => Term.readAll (decoder unzip) (Cursor.ofOffset inflated 0))
            rw [returned_bind]
            cases hi : inflate unzip (packed.drop 4) (toNatBE (packed.take 4)) with
            | error e => rfl
            | ok inflated =>
              have hl := length_of_inflate hi
              rw [hi] at hframes
              exact finish_eq unzip (by omega) (Nat.zero_le _) hframes
          · have hend : packed.length < 0 + 4 := by omega
            simp only [word_eq_fail hp (Nat.zero_le _) hend, Cursor.word,
              take_ofOffset_error (Nat.zero_le _) hend, fail_bind, error_bind, returned_error]
        · rw [if_neg hm] at hframes
          simp only [if_neg hm]
          exact finish_eq unzip hlen (by simp) hframes

theorem length_termBytes (unzip : Bytes → Option Bytes) {data : Bytes}
    (hlen : data.length < 2 ^ 63) : (termBytes unzip data).length < 2 ^ 63 := by
  match data with
  | [] => exact hlen
  | [_] => exact Nat.lt_of_le_of_lt (Nat.zero_le _) hlen
  | _ :: mark :: packed =>
    rw [termBytes]
    split
    · cases hi : inflate unzip (packed.drop 4) (toNatBE (packed.take 4)) with
      | error e => exact Nat.lt_of_le_of_lt (Nat.zero_le _) hlen
      | ok inflated =>
        have hsize := toNatBE_take_four_lt packed
        have hl := length_of_inflate hi
        simp only [Except.toOption, Option.getD_some]
        omega
    · simp only [List.length_cons] at hlen ⊢
      omega

theorem decodeTerm_eq (unzip : Bytes → Option Bytes) {data : Bytes} (hlen : data.length < 2 ^ 63) :
    decodeTerm unzip data = returned (Term.decode (decoder unzip) data) := by
  refine decodeWithin_eq unzip hlen ?_
  have hmax : maxDepth = 512 := rfl
  have hcount : (termBytes unzip data).count exportMark ≤ (termBytes unzip data).length :=
    List.count_le_length
  have hbytes := length_termBytes unzip hlen
  omega

/-! ### Literal tables -/

/-- A constant behind its size; one that cannot be decoded leaves a hole. -/
def literalEntry (unzip : Bytes → Option Bytes) (table : Bytes) (pos : Nat) :
    Checked (Option Term × Nat) := do
  let len ← word table pos
  let start ← add pos 4
  let stop ← orFail (add? start len) (.truncated pos)
  let bs ← orFail (slice? table start stop) (.truncated pos)
  let entry ← attempt (decodeTerm unzip bs)
  return (entry.toOption.map Term.Decoded.term, stop)

def unpackLiterals (unzip : Bytes → Option Bytes) (chunk : Bytes) : Checked Bytes := do
  let size ← word chunk 0
  let packed ← slice chunk 4 chunk.length
  if size = 0 then return packed else returned (inflate unzip packed size)

def parseLiterals (unzip : Bytes → Option Bytes) (chunk : Bytes) : Checked LiteralTable := do
  let table ← unpackLiterals unzip chunk
  let count ← word table 0
  let (terms, _) ← many (literalEntry unzip table) count 4
  return ⟨terms⟩

theorem agrees_literalEntry (unzip : Bytes → Option Bytes) {table : Bytes}
    (hlen : table.length < 2 ^ 63) {pos : Nat} (hpos : pos ≤ table.length) :
    Agrees table pos (literalEntry unzip table pos)
      (mapped (fun entry => entry.toOption.map Term.Decoded.term)
        (LiteralTable.readEntry (decoder unzip)) (Cursor.ofOffset table pos)) := by
  simp only [literalEntry, mapped, LiteralTable.readEntry]
  obtain ⟨len, hw, h4, hlt, hc⟩ | ⟨hw, hc⟩ := word_cases hpos hlen
  · simp only [hw, hc, checked_ok_bind, ok_bind, add_eq_ok (show pos + 4 < 2 ^ 64 by omega),
      add?_eq_some (show pos + 4 + len < 2 ^ 64 by omega), orFail_some, skip_ofOffset]
    by_cases hfit : pos + 4 + len ≤ table.length
    · have hl : ((table.drop (pos + 4)).take len).length < 2 ^ 63 := by
        rw [length_stretch hfit]
        omega
      simp only [slice?_eq_some (show pos + 4 ≤ pos + 4 + len by omega) hfit,
        Nat.add_sub_cancel_left, orFail_some, checked_ok_bind, decodeTerm_eq unzip hl,
        attempt_returned, pure_eq_ok, holds_ofOffset,
        decide_eq_false (show ¬table.length - (pos + 4) < len by omega), Bool.not_false, if_true]
      exact Agrees.ok _ (by omega) hfit
    · simp only [slice?_eq_none (show table.length < pos + 4 + len by omega), orFail_none,
        fail_bind, holds_ofOffset,
        decide_eq_true (show table.length - (pos + 4) < len by omega), Bool.not_true,
        Bool.false_eq_true, if_false]
      exact Agrees.fail _ _
  · simp only [hw, hc, fail_bind, error_bind]
    exact Agrees.fail _ _

theorem unpackLiterals_eq (unzip : Bytes → Option Bytes) {chunk : Bytes}
    (hlen : chunk.length < 2 ^ 63) :
    unpackLiterals unzip chunk = returned (LiteralTable.unpack (decoder unzip) chunk) := by
  obtain ⟨size, hw, h4, -, hc⟩ | ⟨hw, hc⟩ := word_cases (Nat.zero_le chunk.length) hlen
  · simp only [unpackLiterals, LiteralTable.unpack, hw, hc, checked_ok_bind, ok_bind,
      slice_to_end (show 4 ≤ chunk.length by omega)]
    split <;> rfl
  · simp only [unpackLiterals, LiteralTable.unpack, hw, hc, fail_bind, error_bind, returned_error]

theorem length_of_unpack {unzip : Bytes → Option Bytes} {chunk table : Bytes}
    (hlen : chunk.length < 2 ^ 63) (h : LiteralTable.unpack (decoder unzip) chunk = .ok table) :
    table.length < 2 ^ 63 := by
  obtain ⟨size, -, -, hsize, hc⟩ | ⟨-, hc⟩ := word_cases (Nat.zero_le chunk.length) hlen
  · simp only [LiteralTable.unpack, hc, ok_bind] at h
    split at h
    · cases h
      simp only [Cursor.ofOffset, List.length_drop]
      omega
    · rw [length_of_inflate h]
      omega
  · simp only [LiteralTable.unpack, hc, error_bind] at h
    cases h

theorem parseLiterals_eq (unzip : Bytes → Option Bytes) {chunk : Bytes}
    (hlen : chunk.length < 2 ^ 63) :
    parseLiterals unzip chunk = returned (LiteralTable.parse (decoder unzip) chunk).value := by
  rw [parseLiterals, unpackLiterals_eq unzip hlen, LiteralTable.parse]
  cases hu : LiteralTable.unpack (decoder unzip) chunk with
  | error e => rfl
  | ok table =>
    have htable := length_of_unpack hlen hu
    have hentries (run : Run (Except Fault Term.Decoded)) :
        run.toExcept.map LiteralTable.ofEntries =
          (run.toExcept.map
            (List.map fun entry => entry.toOption.map Term.Decoded.term)).map LiteralTable.mk := by
      cases run.toExcept <;> rfl
    simp only [returned_ok, checked_ok_bind, hentries]
    obtain ⟨count, hw, h4, -, hc⟩ | ⟨hw, hc⟩ := word_cases (Nat.zero_le table.length) htable
    · simp only [hw, checked_ok_bind, LiteralTable.entries, hc, map_toExcept_many]
      exact (agrees_many (fun pos _ hpos => agrees_literalEntry unzip htable hpos) count
        (Nat.le_refl _) h4).map_fst LiteralTable.mk
    · simp only [hw, fail_bind, LiteralTable.entries, hc]
      rfl

end BeamScope.Positional
