import BeamScope.Proofs.Positional.Compact
import BeamScope.Table.Functions
import BeamScope.Table.Lines

/-!
# Tables by position

Atoms, functions and lines. The lengths and counts in front of names and rows are those of the
input; none of them leads past the end of a chunk, because each is looked at before the position
moves by it.
-/

namespace BeamScope.Positional

open Bytes

/-! ### Atoms -/

def byteAt (data : Bytes) (pos : Nat) : Checked (UInt8 × Nat) := do
  let b ← orFail data[pos]? (.truncated pos)
  let pos ← add pos 1
  return (b, pos)

/-- The length in front of a name: one byte, or a compact number. -/
def atomLength (compact : Bool) (chunk : Bytes) (pos : Nat) : Checked (Nat × Nat) :=
  if compact then do
    let (item, pos) ← next chunk pos
    if item.value < 0 then fail (.overflow pos) else return (item.value.toNat, pos)
  else do
    let (b, pos) ← byteAt chunk pos
    return (b.toNat, pos)

def atomName (compact latin1 : Bool) (chunk : Bytes) (pos : Nat) : Checked (String × Nat) := do
  let (len, pos) ← atomLength compact chunk pos
  let stop ← add pos len
  let bs ← orFail (slice? chunk pos stop) (.truncated pos)
  let name ← if latin1 then .ok (Bytes.latin1 bs)
    else orFail (Text.Utf8.decode? bs) (.badUtf8 pos)
  let pos ← add pos len
  return (name, pos)

/-- An atom chunk. The count is a signed number of 32 bits. -/
def parseAtoms (latin1 : Bool) (chunk : Bytes) : Checked AtomTable := do
  let raw ← word chunk 0
  let count : Int := if raw < 2 ^ 31 then raw else (raw : Int) - 2 ^ 32
  let (names, _) ← many (atomName (count < 0) latin1 chunk) count.natAbs 4
  return ⟨names⟩

theorem agrees_byteAt {data : Bytes} (hlen : data.length < 2 ^ 63) (pos : Nat) :
    Agrees data (pos + 1) (byteAt data pos) (Cursor.ofOffset data pos).byte := by
  cases hb : data[pos]? with
  | none =>
    simp only [byteAt, hb, Cursor.byte, Cursor.ofOffset, drop_of_getElem?_none hb]
    exact Agrees.fail _ _
  | some b =>
    obtain ⟨hlt, -⟩ := List.getElem?_eq_some_iff.mp hb
    simp only [byteAt, hb, Cursor.byte, Cursor.ofOffset, drop_of_getElem?_some hb, orFail_some,
      checked_ok_bind, add_eq_ok (show pos + 1 < 2 ^ 64 by omega), pure_eq_ok]
    exact Agrees.ok b (by omega) (by omega)

theorem agrees_atomLength (compact : Bool) {chunk : Bytes} (hlen : chunk.length < 2 ^ 63)
    {pos : Nat} (hpos : pos ≤ chunk.length) :
    Agrees chunk (pos + 1) (atomLength compact chunk pos)
      (AtomTable.readLength compact (Cursor.ofOffset chunk pos)) := by
  cases compact with
  | true =>
    refine (agrees_next hlen hpos).bind fun item after _ hafter hend => ?_
    by_cases hneg : item.value < 0
    · simp only [if_pos hneg]
      exact Agrees.fail _ _
    · simp only [if_neg hneg]
      exact Agrees.ok _ hafter hend
  | false =>
    refine (agrees_byteAt hlen pos).bind fun b after _ hafter hend => ?_
    exact Agrees.ok b.toNat hafter hend

theorem readLength_lt {compact : Bool} {c c' : Cursor} {n : Nat}
    (h : AtomTable.readLength compact c = .ok (n, c')) : n < 2 ^ 63 := by
  cases compact with
  | true =>
    obtain ⟨⟨item, after⟩, hn, h⟩ := bind_eq_ok h
    have hfit := (int64_of_next hn).2
    dsimp only at h
    split at h
    · cases h
    · cases h
      omega
  | false =>
    obtain ⟨⟨b, after⟩, -, h⟩ := bind_eq_ok h
    have hlt := b.toNat_lt
    cases h
    exact Nat.lt_trans hlt (by decide)

theorem agrees_atomName (compact latin1 : Bool) {chunk : Bytes} (hlen : chunk.length < 2 ^ 63)
    {pos : Nat} (hpos : pos ≤ chunk.length) :
    Agrees chunk pos (atomName compact latin1 chunk pos)
      (AtomTable.readName compact latin1 (Cursor.ofOffset chunk pos)) := by
  refine (agrees_atomLength compact hlen hpos).bind fun n after hn hafter hend => ?_
  -- A length of 63 bits cannot lead past 64 bits from a place inside the chunk.
  have hlt := readLength_lt hn
  have hadd : add after n = .ok (after + n) := add_eq_ok (by omega)
  simp only [hadd, checked_ok_bind]
  by_cases hfit : after + n ≤ chunk.length
  · simp only [slice?_eq_some (show after ≤ after + n by omega) hfit, Nat.add_sub_cancel_left,
      orFail_some, checked_ok_bind, take_ofOffset_ok hfit, ok_bind]
    cases latin1 with
    | true => exact Agrees.ok _ (by omega) hfit
    | false =>
      simp only [Bool.false_eq_true, if_false]
      cases Text.Utf8.decode? ((chunk.drop after).take n) with
      | some name => exact Agrees.ok name (by omega) hfit
      | none => exact Agrees.fail _ _
  · simp only [slice?_eq_none (show chunk.length < after + n by omega), orFail_none, fail_bind,
      take_ofOffset_error hend (show chunk.length < after + n by omega), error_bind]
    exact Agrees.fail _ _

theorem toIntBE_eq_signed {bs : Bytes} (h : bs.length = 3 + 1) :
    toIntBE bs = if toNatBE bs < 2 ^ 31 then (toNatBE bs : Int) else (toNatBE bs : Int) - 2 ^ 32 := by
  by_cases hlt : toNatBE bs < 2 ^ 31
  · rw [if_pos hlt, toIntBE_eq_of_lt h (by omega)]
  · rw [if_neg hlt, toIntBE_eq_of_le h (by omega)]
    rfl

theorem parseAtoms_eq (latin1 : Bool) {chunk : Bytes} (hlen : chunk.length < 2 ^ 63) :
    parseAtoms latin1 chunk = returned (AtomTable.parse latin1 chunk) := by
  by_cases h4 : 0 + 4 ≤ chunk.length
  · have hsign := toIntBE_eq_signed (length_stretch h4)
    simp only [parseAtoms, AtomTable.parse, word_eq_ok hlen h4, take_ofOffset_ok h4,
      checked_ok_bind, ok_bind, hsign]
    refine (agrees_many (fun pos _ hpos => agrees_atomName _ latin1 hlen hpos) _ (Nat.le_refl _)
      h4).bind_returned fun names last _ _ _ => rfl
  · have hend : chunk.length < 0 + 4 := by omega
    simp only [parseAtoms, AtomTable.parse, word_eq_fail hlen (Nat.zero_le _) hend,
      take_ofOffset_error (Nat.zero_le _) hend, fail_bind, error_bind, returned_error]

/-! ### Functions -/

def row (chunk : Bytes) (pos : Nat) : Checked ((Nat × Nat × Nat) × Nat) := do
  let a ← word chunk pos
  let b ← word chunk (← add pos 4)
  let d ← word chunk (← add pos 8)
  let pos ← add pos 12
  return ((a, b, d), pos)

def rows (chunk : Bytes) : Checked (List (Nat × Nat × Nat)) := do
  let count ← word chunk 0
  let (rows, _) ← many (row chunk) count 4
  return rows

def parseImports (chunk : Bytes) : Checked ImportTable := do
  let rows ← rows chunk
  return ⟨rows.map fun (m, f, a) => ⟨m, f, a⟩⟩

def parseFunctions (chunk : Bytes) : Checked FunctionTable := do
  let rows ← rows chunk
  return ⟨rows.map fun (f, a, l) => ⟨f, a, l⟩⟩

theorem agrees_row {chunk : Bytes} (hlen : chunk.length < 2 ^ 63) {pos : Nat}
    (hpos : pos ≤ chunk.length) :
    Agrees chunk pos (row chunk pos) (Cursor.ofOffset chunk pos).triple := by
  simp only [row, Cursor.triple, add_eq_ok (show pos + 4 < 2 ^ 64 by omega),
    add_eq_ok (show pos + 8 < 2 ^ 64 by omega), add_eq_ok (show pos + 12 < 2 ^ 64 by omega),
    checked_ok_bind]
  obtain ⟨a, hw, ha, -, hc⟩ | ⟨hw, hc⟩ := word_cases hpos hlen
  · rw [hw, hc, checked_ok_bind, ok_bind]
    obtain ⟨b, hw, hb, -, hc⟩ | ⟨hw, hc⟩ := word_cases ha hlen
    · rw [hw, checked_ok_bind]
      simp only [hc, ok_bind]
      obtain ⟨d, hw, hd, -, hc⟩ | ⟨hw, hc⟩ := word_cases hb hlen
      · rw [hw, hc]
        exact Agrees.ok (a, b, d) (by omega) hd
      · rw [hw, hc]
        exact Agrees.fail _ _
    · rw [hw, fail_bind]
      simp only [hc, error_bind]
      exact Agrees.fail _ _
  · rw [hw, hc]
    exact Agrees.fail _ _

theorem rows_eq {chunk : Bytes} (hlen : chunk.length < 2 ^ 63) :
    rows chunk = returned (readTriples chunk) := by
  obtain ⟨count, hw, h4, -, hc⟩ | ⟨hw, hc⟩ := word_cases (Nat.zero_le chunk.length) hlen
  · rw [rows, readTriples, hw, hc]
    exact (agrees_many (fun pos _ hpos => agrees_row hlen hpos) count (Nat.le_refl _)
      h4).bind_returned fun rows last _ _ _ => rfl
  · rw [rows, readTriples, hw, hc]
    rfl

theorem parseImports_eq {chunk : Bytes} (hlen : chunk.length < 2 ^ 63) :
    parseImports chunk = returned (ImportTable.parse chunk) := by
  rw [parseImports, rows_eq hlen, ImportTable.parse, returned_bind]
  rfl

theorem parseFunctions_eq {chunk : Bytes} (hlen : chunk.length < 2 ^ 63) :
    parseFunctions chunk = returned (FunctionTable.parse chunk) := by
  rw [parseFunctions, rows_eq hlen, FunctionTable.parse, returned_bind]
  rfl

/-! ### Lines -/

/-- A field of a header of which only the size has been checked. -/
def headerField (chunk : Bytes) (off : Nat) : Checked Nat := do
  let a ← index chunk off
  let b ← index chunk (← add off 1)
  let c ← index chunk (← add off 2)
  let d ← index chunk (← add off 3)
  return toNatBE [a, b, c, d]

def parseLineHeader (chunk : Bytes) : Checked LineHeader :=
  if chunk.length < LineHeader.size then fail (.truncated chunk.length)
  else do
    let version ← headerField chunk 0
    let flags ← headerField chunk 4
    let instructionCount ← headerField chunk 8
    let lineCount ← headerField chunk 12
    let fileNameCount ← headerField chunk 16
    return ⟨version, flags, instructionCount, lineCount, fileNameCount⟩

def lineEntry (chunk : Bytes) (pos : Nat) : Checked (Nat × Nat) := do
  let (item, pos) ← next chunk pos
  return (LineTable.lineOf item.value, pos)

def parseLines (chunk : Bytes) : Checked LineTable := do
  let header ← parseLineHeader chunk
  let (lines, _) ← many (lineEntry chunk) header.lineCount LineHeader.size
  return ⟨lines⟩

theorem headerField_eq_ok {chunk : Bytes} (hlen : chunk.length < 2 ^ 63) {off : Nat}
    (h : off + 4 ≤ chunk.length) :
    headerField chunk off = .ok (toNatBE ((chunk.drop off).take 4)) := by
  have hget (i : Nat) (hi : i < chunk.length) : index chunk i = .ok chunk[i] :=
    index_eq_ok (List.getElem?_eq_getElem hi)
  have hbytes : (chunk.drop off).take 4 =
      [chunk[off], chunk[off + 1], chunk[off + 2], chunk[off + 3]] := by
    rw [List.drop_eq_getElem_cons (show off < chunk.length by omega),
      List.drop_eq_getElem_cons (show off + 1 < chunk.length by omega),
      List.drop_eq_getElem_cons (show off + 2 < chunk.length by omega),
      List.drop_eq_getElem_cons (show off + 3 < chunk.length by omega)]
    rfl
  rw [hbytes]
  simp only [headerField, hget off (by omega), hget (off + 1) (by omega), hget (off + 2) (by omega),
    hget (off + 3) (by omega), add_eq_ok (show off + 1 < 2 ^ 64 by omega),
    add_eq_ok (show off + 2 < 2 ^ 64 by omega), add_eq_ok (show off + 3 < 2 ^ 64 by omega),
    checked_ok_bind, pure_eq_ok]

theorem parseLineHeader_eq {chunk : Bytes} (hlen : chunk.length < 2 ^ 63) :
    parseLineHeader chunk = returned (LineHeader.parse chunk) := by
  have hsize : LineHeader.size = 20 := rfl
  by_cases h : chunk.length < LineHeader.size
  · have hh : holds LineHeader.size chunk = false := by
      rw [Bool.eq_false_iff, ne_eq, holds_iff]
      omega
    simp only [parseLineHeader, if_pos h, LineHeader.parse, hh, Bool.false_eq_true, if_false,
      returned_error]
  · have hh : holds LineHeader.size chunk = true := by
      rw [holds_iff]
      omega
    have hfield (off : Nat) (hoff : off + 4 ≤ 20) := headerField_eq_ok hlen
      (show off + 4 ≤ chunk.length by omega)
    simp only [parseLineHeader, if_neg h, LineHeader.parse, hh, if_true, hfield 0 (by omega),
      hfield 4 (by omega), hfield 8 (by omega), hfield 12 (by omega), hfield 16 (by omega),
      checked_ok_bind, pure_eq_ok, returned_ok]

def mapped {α β : Type} (f : α → β) (read : Cursor → Except Fault (α × Cursor)) (c : Cursor) :
    Except Fault (β × Cursor) := do
  let (a, c) ← read c
  return (f a, c)

/-- The items of a run can be looked at one by one as they are read. -/
theorem map_toExcept_many {α β : Type} (f : α → β) (read : Cursor → Except Fault (α × Cursor))
    (n : Nat) (c : Cursor) :
    (Run.many read n c).toExcept.map (List.map f) =
      (Cursor.many (mapped f read) n c).map Prod.fst := by
  have hcons (a : α) (r : Run α) : (Run.cons a r).toExcept.map (List.map f) =
      (r.toExcept.map (List.map f)).map (f a :: ·) := by
    obtain ⟨items, fault⟩ := r
    cases fault <;> rfl
  induction n generalizing c with
  | zero => rfl
  | succ n ih =>
    simp only [Run.many, Cursor.many, mapped]
    cases read c with
    | error e => rfl
    | ok found =>
      obtain ⟨a, after⟩ := found
      simp only [ok_bind, hcons, ih, pure, Except.pure]
      generalize Cursor.many _ n after = r
      cases r <;> rfl

theorem agrees_lineEntry {chunk : Bytes} (hlen : chunk.length < 2 ^ 63) {pos : Nat}
    (hpos : pos ≤ chunk.length) :
    Agrees chunk pos (lineEntry chunk pos)
      (mapped (fun p => LineTable.lineOf p.2.value) LineTable.readEntry
        (Cursor.ofOffset chunk pos)) := by
  have hread (c : Cursor) : mapped (fun p => LineTable.lineOf p.2.value) LineTable.readEntry c =
      Compact.next c >>= fun found => .ok (LineTable.lineOf found.1.value, found.2) := by
    simp only [mapped, LineTable.readEntry]
    cases Compact.next c <;> rfl
  rw [hread]
  exact (agrees_next hlen hpos).bind fun item after _ hafter hend =>
    Agrees.ok _ (by omega) hend

theorem size_le_of_parse {chunk : Bytes} {header : LineHeader}
    (h : LineHeader.parse chunk = .ok header) : LineHeader.size ≤ chunk.length := by
  simp only [LineHeader.parse] at h
  split at h
  · next hh => exact holds_iff.mp hh
  · cases h

theorem parseLines_eq {chunk : Bytes} (hlen : chunk.length < 2 ^ 63) :
    parseLines chunk = returned (LineTable.parse chunk).value := by
  rw [parseLines, parseLineHeader_eq hlen, LineTable.parse]
  cases hh : LineHeader.parse chunk with
  | error e => rfl
  | ok header =>
    have hentries := map_toExcept_many (fun p => LineTable.lineOf p.2.value) LineTable.readEntry
      header.lineCount (Cursor.ofOffset chunk LineHeader.size)
    have htable : ((LineTable.entries header chunk).toExcept.map fun items =>
        (⟨items.map fun p => LineTable.lineOf p.2.value⟩ : LineTable)) =
        ((LineTable.entries header chunk).toExcept.map
          (List.map fun p => LineTable.lineOf p.2.value)).map LineTable.mk := by
      cases (LineTable.entries header chunk).toExcept <;> rfl
    simp only [returned_ok, checked_ok_bind, htable]
    rw [LineTable.entries, hentries]
    have hagrees := agrees_many (fun pos _ hpos => agrees_lineEntry hlen hpos) header.lineCount
      (Nat.le_refl _) (size_le_of_parse hh)
    exact hagrees.map_fst LineTable.mk

end BeamScope.Positional
