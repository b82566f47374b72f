import BeamScope.Proofs.CompactForms
import BeamScope.Proofs.Positional.Tables

/-!
# A line table is read completely or not at all

Behind the header of a line chunk stand as many compact numbers as the header announces, one behind
the other (`Compact.Follow`). If all of them can be read, the table has the low 24 bits of each,
under whatever tags they stand and whatever comes behind them. If one cannot, there is no table, and
an index stands for the line of the same number.
-/

namespace BeamScope

namespace Run

theorem toExcept_cons_eq_ok {α : Type} {a : α} {r : Run α} {as : List α} :
    (cons a r).toExcept = .ok as ↔ ∃ rest, r.toExcept = .ok rest ∧ as = a :: rest := by
  obtain ⟨items, fault⟩ := r
  cases fault with
  | none => simp [cons, toExcept, eq_comm]
  | some e => simp [cons, toExcept]

end Run

namespace Compact

/-- Compact numbers that stand one behind the other, the first of them at an offset. -/
inductive Follow (data : Bytes) : Nat → List Compact → Prop where
  | nil {offset : Nat} : Follow data offset []
  | cons {offset used : Nat} {c : Compact} {cs : List Compact}
      (hc : decode data offset = .ok (c, used)) (hcs : Follow data (offset + used) cs) :
      Follow data offset (c :: cs)

theorem decode_append {data : Bytes} {offset : Nat} {found : Compact × Nat}
    (h : decode data offset = .ok found) (suf : Bytes) :
    decode (data ++ suf) offset = .ok found := by
  obtain ⟨c, n⟩ := found
  unfold decode at h ⊢
  obtain ⟨w, rest, hdata, rfl, hw⟩ := written_of_read h
  rw [List.drop_append, hdata, List.append_assoc]
  exact hw.read_append offset _

theorem Follow.append {data : Bytes} {offset : Nat} {cs : List Compact}
    (h : Follow data offset cs) (suf : Bytes) : Follow (data ++ suf) offset cs := by
  induction h with
  | nil => exact .nil
  | cons hc _ ih => exact .cons (decode_append hc suf) ih

theorem follow_encode {vs : List Int} (hvs : ∀ v ∈ vs, isInt64 v = true) (pre suf : Bytes) :
    Follow (pre ++ (vs.flatMap (encode .integer) ++ suf)) pre.length
      (vs.map fun v => ⟨.integer, v⟩) := by
  induction vs generalizing pre with
  | nil => exact .nil
  | cons v vs ih =>
    have hv : Tag.Admits .integer v := (isInt64_iff v).mp (hvs v (List.mem_cons_self ..))
    have hrest := ih (fun u hu => hvs u (List.mem_cons_of_mem _ hu)) (pre ++ encode .integer v)
    rw [List.length_append, List.append_assoc] at hrest
    rw [List.flatMap_cons, List.append_assoc]
    refine .cons ?_ hrest
    rw [decode, List.drop_left]
    exact read_encode hv pre.length _

end Compact

/-- A header in bytes. -/
def LineHeader.bytes (h : LineHeader) : Bytes :=
  [h.version, h.flags, h.instructionCount, h.lineCount, h.fileNameCount].flatMap (Bytes.ofNatBE 4)

namespace LineTable

open Bytes BeamScope.Compact

/-- A line chunk whose entries are integer literals; the header counts them. -/
def write (h : LineHeader) (vs : List Int) : Bytes :=
  LineHeader.bytes { h with lineCount := vs.length } ++ vs.flatMap (encode .integer)

/-- How many entries a chunk announces. -/
def announced (chunk : Bytes) : Nat := toNatBE ((chunk.drop 12).take 4)

/-! ### Lines -/

theorem lineOf_eq_bits (v : Int) : lineOf v = (BitVec.ofInt 24 v).toNat := by
  rw [BitVec.toNat_ofInt]
  rfl

theorem lineOf_lt (v : Int) : lineOf v < 2 ^ 24 := by
  rw [lineOf_eq_bits]
  exact BitVec.isLt _

/-! ### Entries -/

section Entries

variable {data : Bytes} {offset : Nat}

theorem readEntry_of_decode {c : Compact} {used : Nat} (h : decode data offset = .ok (c, used)) :
    readEntry (Cursor.ofOffset data offset) =
      .ok ((offset, c), Cursor.ofOffset data (offset + used)) := by
  rw [← Positional.skip_ofOffset]
  unfold decode at h
  simp only [readEntry, next, Cursor.ofOffset, h, ok_bind]
  rfl

theorem decode_of_readEntry {item : Nat × Compact} {after : Cursor}
    (h : readEntry (Cursor.ofOffset data offset) = .ok (item, after)) :
    ∃ used, decode data offset = .ok (item.2, used) ∧
      after = Cursor.ofOffset data (offset + used) := by
  cases hd : decode data offset with
  | error e =>
    unfold decode at hd
    simp only [readEntry, next, Cursor.ofOffset, hd, error_bind] at h
    cases h
  | ok found =>
    obtain ⟨c, used⟩ := found
    rw [readEntry_of_decode hd] at h
    cases h
    exact ⟨used, rfl, rfl⟩

theorem many_of_follow {cs : List Compact} (h : Follow data offset cs) :
    ∃ items, (Run.many readEntry cs.length (Cursor.ofOffset data offset)).toExcept = .ok items ∧
      items.map Prod.snd = cs := by
  induction h with
  | nil => exact ⟨[], rfl, rfl⟩
  | @cons offset used c cs hc _ ih =>
    obtain ⟨items, hrun, hitems⟩ := ih
    refine ⟨(offset, c) :: items, ?_, by rw [List.map_cons, hitems]⟩
    rw [List.length_cons, Run.many, readEntry_of_decode hc]
    exact Run.toExcept_cons_eq_ok.mpr ⟨items, hrun, rfl⟩

theorem follow_of_many {n : Nat} {items : List (Nat × Compact)}
    (h : (Run.many readEntry n (Cursor.ofOffset data offset)).toExcept = .ok items) :
    items.length = n ∧ Follow data offset (items.map Prod.snd) := by
  induction n generalizing offset items with
  | zero =>
    cases h
    exact ⟨rfl, .nil⟩
  | succ n ih =>
    unfold Run.many at h
    split at h
    · cases h
    next item after hentry =>
      obtain ⟨used, hdecode, rfl⟩ := decode_of_readEntry hentry
      obtain ⟨rest, hrest, rfl⟩ := Run.toExcept_cons_eq_ok.mp h
      obtain ⟨hlength, hfollow⟩ := ih hrest
      exact ⟨by rw [List.length_cons, hlength], .cons hdecode hfollow⟩

end Entries

/-! ### Tables -/

theorem parse_eq_ok {chunk : Bytes} {header : LineHeader} {table : LineTable}
    (h : LineHeader.parse chunk = .ok header) :
    (parse chunk).value = .ok table ↔
      ∃ items, (entries header chunk).toExcept = .ok items ∧
        table.lines = items.map fun p => lineOf p.2.value := by
  obtain ⟨lines⟩ := table
  simp only [parse, h]
  cases (entries header chunk).toExcept with
  | error e => simp [Except.map]
  | ok items => simp [Except.map, eq_comm]

theorem parse_header {chunk : Bytes} (h : LineHeader.size ≤ chunk.length) :
    ∃ header, LineHeader.parse chunk = .ok header ∧ header.lineCount = announced chunk := by
  have hholds : holds LineHeader.size chunk = true := holds_iff.mpr h
  simp only [LineHeader.parse, if_pos hholds]
  exact ⟨_, rfl, rfl⟩

theorem size_le_of_parse {chunk : Bytes} {table : LineTable}
    (h : (parse chunk).value = .ok table) : LineHeader.size ≤ chunk.length := by
  cases hparse : LineHeader.parse chunk with
  | error e =>
    simp only [parse, hparse] at h
    cases h
  | ok header => exact Positional.size_le_of_parse hparse

theorem parse_eq_ok_iff {chunk : Bytes} {table : LineTable} :
    (parse chunk).value = .ok table ↔
      LineHeader.size ≤ chunk.length ∧ ∃ cs, cs.length = announced chunk ∧
        Follow chunk LineHeader.size cs ∧ table.lines = cs.map fun c => lineOf c.value := by
  constructor
  · intro h
    have hsize := size_le_of_parse h
    obtain ⟨header, hparse, hcount⟩ := parse_header hsize
    obtain ⟨items, hitems, hlines⟩ := (parse_eq_ok hparse).mp h
    obtain ⟨hlength, hfollow⟩ := follow_of_many hitems
    refine ⟨hsize, items.map Prod.snd, ?_, hfollow, ?_⟩
    · rw [List.length_map, hlength, hcount]
    · rw [hlines, List.map_map]
      rfl
  · rintro ⟨hsize, cs, hlength, hfollow, hlines⟩
    obtain ⟨header, hparse, hcount⟩ := parse_header hsize
    obtain ⟨items, hitems, rfl⟩ := many_of_follow hfollow
    rw [hlength, ← hcount] at hitems
    refine (parse_eq_ok hparse).mpr ⟨items, hitems, ?_⟩
    rw [hlines, List.map_map]
    rfl

theorem announced_append {chunk : Bytes} (h : LineHeader.size ≤ chunk.length) (suf : Bytes) :
    announced (chunk ++ suf) = announced chunk := by
  have hsize : LineHeader.size = 20 := rfl
  have hdrop : 4 ≤ (chunk.drop 12).length := by
    rw [List.length_drop]
    omega
  rw [announced, List.drop_append_of_le_length (by omega), List.take_append_of_le_length hdrop]
  rfl

theorem parse_append {chunk : Bytes} {table : LineTable} (h : (parse chunk).value = .ok table)
    (suf : Bytes) : (parse (chunk ++ suf)).value = .ok table := by
  obtain ⟨hsize, cs, hlength, hfollow, hlines⟩ := parse_eq_ok_iff.mp h
  refine parse_eq_ok_iff.mpr ⟨?_, cs, ?_, hfollow.append suf, hlines⟩
  · rw [List.length_append]
    omega
  · rw [hlength, announced_append hsize]

theorem length_bytes (h : LineHeader) : h.bytes.length = LineHeader.size := by
  simp [LineHeader.bytes, LineHeader.size]

theorem announced_bytes {h : LineHeader} (hcount : h.lineCount < 2 ^ 32) (rest : Bytes) :
    announced (h.bytes ++ rest) = h.lineCount := by
  have hskip : (ofNatBE 4 h.version ++ ofNatBE 4 h.flags ++
      ofNatBE 4 h.instructionCount).length = 12 := by simp
  have hbytes : h.bytes ++ rest = (ofNatBE 4 h.version ++ ofNatBE 4 h.flags ++
      ofNatBE 4 h.instructionCount) ++ (ofNatBE 4 h.lineCount ++
        (ofNatBE 4 h.fileNameCount ++ rest)) := by
    simp [LineHeader.bytes]
  rw [announced, hbytes, List.drop_left' hskip, List.take_left' (length_ofNatBE 4 _),
    toNatBE_ofNatBE_of_lt hcount]

theorem parse_write {vs : List Int} (hlength : vs.length < 2 ^ 32)
    (hvs : ∀ v ∈ vs, isInt64 v = true) (h : LineHeader) (suf : Bytes) :
    (parse (write h vs ++ suf)).value = .ok ⟨vs.map lineOf⟩ := by
  have hcount := announced_bytes (h := { h with lineCount := vs.length }) hlength
    (vs.flatMap (encode .integer) ++ suf)
  have hfollow := follow_encode hvs (LineHeader.bytes { h with lineCount := vs.length }) suf
  rw [length_bytes] at hfollow
  rw [write, List.append_assoc]
  refine parse_eq_ok_iff.mpr ⟨?_, vs.map fun v => ⟨.integer, v⟩, ?_, hfollow, ?_⟩
  · rw [List.length_append, length_bytes]
    omega
  · rw [List.length_map, hcount]
  · rw [List.map_map]
    rfl

theorem ofChunk_of_parse {chunk : Bytes} {table : LineTable}
    (h : (parse chunk).value = .ok table) : (ofChunk (some chunk)).value = table := by
  rw [value_ofChunk_some, h]
  rfl

theorem ofChunk_of_not_parse {chunk : Bytes} (h : ¬∃ table, (parse chunk).value = .ok table) :
    (ofChunk (some chunk)).value = empty := by
  rw [value_ofChunk_some]
  cases hparse : (parse chunk).value with
  | error e => rfl
  | ok table => exact absurd ⟨table, hparse⟩ h

theorem lt_of_mem_ofChunk {chunk : Option Bytes} {n : Nat}
    (h : n ∈ (ofChunk chunk).value.lines) : n < 2 ^ 24 := by
  cases chunk with
  | none => cases h
  | some chunk =>
    by_cases hparse : ∃ table, (parse chunk).value = .ok table
    · obtain ⟨table, hparse⟩ := hparse
      obtain ⟨-, cs, -, -, hlines⟩ := parse_eq_ok_iff.mp hparse
      rw [ofChunk_of_parse hparse, hlines] at h
      obtain ⟨c, -, rfl⟩ := List.mem_map.mp h
      exact lineOf_lt c.value
    · rw [ofChunk_of_not_parse hparse] at h
      cases h

/-- A line table is read exactly or not at all. A chunk gives a table if it holds a header and every
entry that the header announces, and only then; the table has the low 24 bits of each, and stays the
same whatever follows. Any other chunk gives the empty table, where an index stands for itself. In
particular, numbers that were written behind a header are read back modulo `2 ^ 24`. -/
theorem parse_exact_or_empty (chunk : Bytes) :
    (∀ table, (parse chunk).value = .ok table ↔
      20 ≤ chunk.length ∧ ∃ cs : List Compact, cs.length = toNatBE ((chunk.drop 12).take 4) ∧
        Follow chunk 20 cs ∧ table.lines = cs.map fun c => (BitVec.ofInt 24 c.value).toNat) ∧
    (∀ table, (parse chunk).value = .ok table →
      (ofChunk (some chunk)).value = table ∧ ∀ suf, (parse (chunk ++ suf)).value = .ok table) ∧
    ((¬∃ table, (parse chunk).value = .ok table) →
      (ofChunk (some chunk)).value = empty ∧ ∀ i, empty.resolve i = i) ∧
    ∀ (h : LineHeader) (vs : List Int) (suf : Bytes), vs.length < 2 ^ 32 →
      (∀ v ∈ vs, -(2 ^ 63) ≤ v ∧ v < 2 ^ 63) →
      (parse (write h vs ++ suf)).value = .ok ⟨vs.map fun v => (v % 2 ^ 24).toNat⟩ := by
  refine ⟨?_, ?_, ?_, ?_⟩
  · intro table
    simp only [← lineOf_eq_bits]
    exact parse_eq_ok_iff
  · intro table h
    exact ⟨ofChunk_of_parse h, parse_append h⟩
  · intro h
    exact ⟨ofChunk_of_not_parse h, resolve_empty⟩
  · intro h vs suf hlength hvs
    exact parse_write hlength (fun v hv => (isInt64_iff v).mpr (hvs v hv)) h suf

-- A negative number and one of 25 bits. Without its last two bytes the chunk breaks off in the
-- third entry, and the two before it are lost as well.
theorem parse_exact_or_empty_cut :
    let h : LineHeader := ⟨0, 0, 3, 0, 1⟩
    let vs : List Int := [7, -1, 2 ^ 24 + 5]
    let cut : Bytes := (write h vs).take 27
    (parse (write h vs ++ [0xff])).value = .ok ⟨[7, 2 ^ 24 - 1, 5]⟩ ∧
      (¬∃ table, (parse cut).value = .ok table) ∧ (ofChunk (some cut)).value = empty ∧
      empty.resolve 1 = 1 := by
  intro h vs cut
  have hcut : ¬∃ table, (parse cut).value = .ok table := by
    rintro ⟨table, htable⟩
    have hnone : (parse cut).value.toOption = none := by decide +kernel +zetaReduce
    rw [htable] at hnone
    cases hnone
  obtain ⟨-, -, hempty, -⟩ := parse_exact_or_empty cut
  obtain ⟨-, -, -, hwritten⟩ := parse_exact_or_empty []
  refine ⟨hwritten h vs [0xff] (by decide) (by decide +zetaReduce), hcut, (hempty hcut).1, ?_⟩
  exact (hempty hcut).2 1

end LineTable

end BeamScope
