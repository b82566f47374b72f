import BeamScope.Proofs.Positional.Tables
import BeamScope.Table.Literals

/-!
# Literals keep their numbers

The entries of a literal table stand one behind the other, each behind its size. What an entry holds
is looked at only between the ends that its size gives it, so an entry that cannot be decoded leaves
a hole, and no other entry notices. A table that breaks off is another matter: then there are no
literals at all.
-/

namespace BeamScope.LiteralTable

open Bytes

/-! ### Writing -/

def writeEntry (e : Bytes) : Bytes := ofNatBE 4 e.length ++ e

def tableBytes (es : List Bytes) : Bytes := ofNatBE 4 es.length ++ es.flatMap writeEntry

/-- A chunk with the table as it is. -/
def stored (es : List Bytes) : Bytes := ofNatBE 4 0 ++ tableBytes es

/-- A chunk holds a table as it is behind the size 0, or compressed behind another size. -/
inductive Holds (d : Term.Decoder) (table : Bytes) : Bytes → Prop where
  | stored : Holds d table (ofNatBE 4 0 ++ table)
  | packed {size : Nat} {z : Bytes} (hpos : 0 < size) (hsize : size < 2 ^ 32)
      (hz : d.inflate z size = .ok table) : Holds d table (ofNatBE 4 size ++ z)

/-! ### Reading -/

/-- The term of an entry; a hole if it could not be decoded. -/
def entryTerm? (entry : Except Fault Term.Decoded) : Option Term :=
  entry.toOption.map Term.Decoded.term

def readLiteral (d : Term.Decoder) : Cursor → Except Fault (Option Term × Cursor) :=
  Positional.mapped entryTerm? (readEntry d)

def readTable (d : Term.Decoder) (c : Cursor) : Except Fault (List (Option Term) × Cursor) := do
  let (count, c) ← c.word 4
  Cursor.many (readLiteral d) count c

theorem entryTerm?_eq_some {entry : Except Fault Term.Decoded} {t : Term} :
    entryTerm? entry = some t ↔ ∃ trailing, entry = .ok ⟨t, trailing⟩ := by
  cases entry with
  | error e => simp [entryTerm?, Except.toOption]
  | ok decoded =>
    obtain ⟨term, trailing⟩ := decoded
    simp [entryTerm?, Except.toOption]

theorem delimits_readEntry (d : Term.Decoder) {e : Bytes} (h : e.length < 2 ^ 32) :
    Cursor.Delimits (readEntry d) (writeEntry e) (Term.decode d e) := by
  refine (Cursor.delimits_word (show e.length < 256 ^ 4 from h)).bind fun start => ?_
  constructor
  · intro pos suf
    simp only [holds_append, if_true, List.take_left, Cursor.skip_append rfl]
    rfl
  · intro pos k hk
    refine ⟨start.pos, ?_⟩
    simp only [holds_take_of_lt hk, Bool.false_eq_true, if_false]

theorem delimits_readTable (d : Term.Decoder) {es : List Bytes} (hn : es.length < 2 ^ 32)
    (hes : ∀ e ∈ es, e.length < 2 ^ 32) :
    Cursor.Delimits (readTable d) (tableBytes es)
      (es.map fun e => entryTerm? (Term.decode d e)) := by
  refine (Cursor.delimits_word (show es.length < 256 ^ 4 from hn)).bind fun _ => ?_
  apply Cursor.delimits_many
  intro e he
  exact (delimits_readEntry d (hes e he)).map entryTerm?

theorem value_parse {d : Term.Decoder} {chunk table : Bytes} (h : unpack d chunk = .ok table) :
    (parse d chunk).value = (readTable d ⟨0, table⟩).map fun found => ⟨found.1⟩ := by
  have hentries (run : Run (Except Fault Term.Decoded)) :
      run.toExcept.map ofEntries = (run.toExcept.map (List.map entryTerm?)).map mk := by
    cases run.toExcept <;> rfl
  simp only [parse, h, hentries, entries, readTable, Cursor.ofOffset, List.drop_zero]
  cases Cursor.word 4 ⟨0, table⟩ with
  | error e => rfl
  | ok found =>
    simp only [Positional.map_toExcept_many, ok_bind]
    rw [readLiteral]
    cases Cursor.many _ found.1 found.2 <;> rfl

theorem unpack_of_size (d : Term.Decoder) {size : Nat} (h : size < 2 ^ 32) (body : Bytes) :
    unpack d (ofNatBE 4 size ++ body) = if size = 0 then .ok body else d.inflate body size := by
  have hword := Cursor.reads_word (show size < 256 ^ 4 from h) 0 body
  simp only [unpack, Cursor.ofOffset, List.drop_zero, hword, ok_bind]
  rfl

theorem unpack_of_holds {d : Term.Decoder} {table chunk : Bytes} (h : Holds d table chunk) :
    unpack d chunk = .ok table := by
  cases h with
  | stored => rw [unpack_of_size d (by decide), if_pos rfl]
  | packed hpos hsize hz => rw [unpack_of_size d hsize, if_neg (Nat.ne_of_gt hpos), hz]

theorem unpack_take_of_lt (d : Term.Decoder) {size k : Nat} (hsize : size < 2 ^ 32) (hk : k < 4)
    (body : Bytes) :
    ∃ place, unpack d ((ofNatBE 4 size ++ body).take k) = .error (.truncated place) := by
  obtain ⟨place, hword⟩ := (Cursor.delimits_word (show size < 256 ^ 4 from hsize)).cut 0
    (show k < (ofNatBE 4 size).length by rwa [length_ofNatBE])
  refine ⟨place, ?_⟩
  rw [List.take_append_of_le_length (by rw [length_ofNatBE]; omega)]
  simp only [unpack, Cursor.ofOffset, List.drop_zero, hword, error_bind]

/-! ### Tables -/

section Written

variable (d : Term.Decoder) {es : List Bytes} (hn : es.length < 2 ^ 32)
  (hes : ∀ e ∈ es, e.length < 2 ^ 32)
include hn hes

theorem parse_of_holds {chunk : Bytes} (h : Holds d (tableBytes es) chunk) :
    (parse d chunk).value = .ok ⟨es.map fun e => entryTerm? (Term.decode d e)⟩ := by
  have hread := (delimits_readTable d hn hes).reads 0 []
  rw [List.append_nil] at hread
  rw [value_parse (unpack_of_holds h), hread]
  rfl

theorem parse_stored_take {k : Nat} (hk : k < (stored es).length) :
    ∃ place, (parse d ((stored es).take k)).value = .error (.truncated place) := by
  have hsize : (ofNatBE 4 0).length = 4 := length_ofNatBE 4 0
  by_cases hfour : k < 4
  · obtain ⟨place, hunpack⟩ := unpack_take_of_lt d (show 0 < 2 ^ 32 by decide) hfour (tableBytes es)
    refine ⟨place, ?_⟩
    unfold stored parse
    rw [hunpack]
  · have hcut : (stored es).take k = ofNatBE 4 0 ++ (tableBytes es).take (k - 4) := by
      unfold stored
      rw [List.take_append, hsize, List.take_of_length_le (by omega)]
    have hshort : k - 4 < (tableBytes es).length := by
      unfold stored at hk
      rw [List.length_append, hsize] at hk
      omega
    obtain ⟨place, hread⟩ := (delimits_readTable d hn hes).cut 0 hshort
    refine ⟨place, ?_⟩
    rw [hcut, value_parse (unpack_of_holds .stored), hread]
    rfl

end Written

theorem get?_eq_some {d : Term.Decoder} {es : List Bytes} {i : Nat} {t : Term} :
    get? ⟨es.map fun e => entryTerm? (Term.decode d e)⟩ i = some t ↔
      ∃ e, es[i]? = some e ∧ ∃ trailing, Term.decode d e = .ok ⟨t, trailing⟩ := by
  unfold get?
  rw [Option.join_eq_some_iff, List.getElem?_map, Option.map_eq_some_iff]
  simp only [entryTerm?_eq_some]

/-- Literals keep their numbers. A chunk that holds a table, as it is or compressed in any way that
can be undone, gives a table of as many entries, in which a number stands for a term exactly if the
entry with that number can be decoded and holds it, whatever the others hold. A chunk that breaks
off before the end of its last entry is refused, and no literal is left of it. -/
theorem parse_aligned_or_cut (d : Term.Decoder) (es : List Bytes) (hn : es.length < 2 ^ 32)
    (hes : ∀ e ∈ es, e.length < 2 ^ 32) :
    (∀ chunk, Holds d (tableBytes es) chunk → ∃ table,
      (parse d chunk).value = .ok table ∧ (ofChunk d (some chunk)).value = table ∧
      table.terms.length = es.length ∧
      ∀ i t, table.get? i = some t ↔
        ∃ e, es[i]? = some e ∧ ∃ trailing, Term.decode d e = .ok ⟨t, trailing⟩) ∧
    ∀ k < (stored es).length,
      (∃ place, (parse d ((stored es).take k)).value = .error (.truncated place)) ∧
      (ofChunk d (some ((stored es).take k))).value = empty := by
  constructor
  · intro chunk h
    have hparse := parse_of_holds d hn hes h
    refine ⟨_, hparse, ?_, List.length_map .., fun i t => get?_eq_some⟩
    rw [value_ofChunk_some, hparse]
    rfl
  · intro k hk
    obtain ⟨place, hparse⟩ := parse_stored_take d hn hes hk
    refine ⟨⟨place, hparse⟩, ?_⟩
    rw [value_ofChunk_some, hparse]
    rfl

-- An entry with an unknown tag, one with a byte behind its term, and a third one; the stream holds
-- the table in one block that is not compressed. Without its last byte the table is refused.
theorem parse_aligned_or_cut_hole :
    let es : List Bytes := [[131, 238], [131, 106, 255], [131, 119, 2, 111, 107]]
    let z : Bytes := [120, 1, 1, 26, 0, 229, 255] ++ tableBytes es ++ [52, 48, 5, 65]
    let chunk : Bytes := ofNatBE 4 (tableBytes es).length ++ z
    Holds .standard (tableBytes es) chunk ∧
    (∃ table, (parse .standard chunk).value = .ok table ∧ table.terms.length = 3 ∧
      table.get? 0 = none ∧ table.get? 1 = some .nil ∧ table.get? 2 = some (.atom "ok")) ∧
    (ofChunk .standard (some ((stored es).take 29))).value = empty := by
  intro es z chunk
  have hunzip : Zlib.decompress? z = some (tableBytes es) := by decide +kernel +zetaReduce
  have hinflate : Term.Decoder.standard.inflate z (tableBytes es).length = .ok (tableBytes es) := by
    rw [Term.Decoder.standard_inflate]
    exact Zlib.inflate_eq_ok hunzip
  have hholds : Holds .standard (tableBytes es) chunk := by
    apply Holds.packed _ _ hinflate
    · decide +zetaReduce
    · decide +zetaReduce
  obtain ⟨haligned, hcut⟩ := parse_aligned_or_cut .standard es (by decide) (by decide +zetaReduce)
  obtain ⟨table, hparse, -, hlength, hget⟩ := haligned chunk hholds
  refine ⟨hholds, ⟨table, hparse, hlength, ?_, ?_, ?_⟩, (hcut 29 (by decide +zetaReduce)).2⟩
  · rw [Option.eq_none_iff_forall_ne_some]
    intro t ht
    obtain ⟨e, he, trailing, hdecode⟩ := (hget 0 t).mp ht
    cases he
    cases hdecode
  · exact (hget 1 .nil).mpr ⟨_, rfl, 1, rfl⟩
  · exact (hget 2 (.atom "ok")).mpr ⟨_, rfl, 0, rfl⟩

end BeamScope.LiteralTable
