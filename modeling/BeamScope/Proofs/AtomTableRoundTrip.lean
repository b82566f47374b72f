import BeamScope.Proofs.CompactForms
import BeamScope.Proofs.Utf8
import BeamScope.Table.Atoms

/-!
# Atom tables are read back

Names are written behind a count that says by its sign how their lengths are written: one byte each,
or compact numbers. The names themselves are UTF-8, or Latin-1 with a byte for each character. What
was written in one of the four layouts is read back, whatever follows; when it breaks off anywhere
there is no table.
-/

namespace BeamScope

namespace Bytes

/-- A byte for each character, by its number. -/
def ofLatin1 (s : String) : Bytes := s.toList.map fun c => UInt8.ofNat c.toNat

theorem latin1_ofLatin1 {s : String} (h : ∀ c ∈ s.toList, c.toNat < 256) :
    latin1 (ofLatin1 s) = s := by
  have hchar : ∀ c ∈ s.toList, Char.ofNat (UInt8.ofNat c.toNat).toNat = id c := by
    intro c hc
    rw [UInt8.toNat_ofNat_of_lt' (h c hc), Char.ofNat_toNat]
    rfl
  unfold latin1 ofLatin1
  rw [List.map_map]
  apply String.toList_injective
  rw [String.toList_ofList]
  exact (List.map_congr_left hchar).trans (List.map_id _)

end Bytes

namespace AtomTable

open Bytes

/-! ### Writing -/

def nameBytes (latin1 : Bool) (name : String) : Bytes :=
  if latin1 then ofLatin1 name else Text.Utf8.encode name

def writeLength (compact : Bool) (n : Nat) : Bytes :=
  if compact then Compact.encode .unsigned n else [UInt8.ofNat n]

def writeName (compact latin1 : Bool) (name : String) : Bytes :=
  writeLength compact (nameBytes latin1 name).length ++ nameBytes latin1 name

/-- The number in front of `n` names, negative if their lengths are compact numbers. -/
def signedCount (compact : Bool) (n : Nat) : Int := if compact then -n else n

/-- A chunk that holds the names. -/
def write (compact latin1 : Bool) (names : List String) : Bytes :=
  ofIntBE 4 (signedCount compact names.length) ++ names.flatMap (writeName compact latin1)

/-- Whether names can be written in a layout. A length has one byte, or 63 bits, which no byte
string in memory exceeds; a count of no names has no sign. -/
structure Writable (compact latin1 : Bool) (names : List String) : Prop where
  count : names.length < 2 ^ 31
  nonempty : compact = true → names ≠ []
  chars : latin1 = true → ∀ name ∈ names, ∀ c ∈ name.toList, c.toNat < 256
  lengths : ∀ name ∈ names, (nameBytes latin1 name).length < if compact then 2 ^ 63 else 256

/-! ### Reading a name -/

theorem delimits_readLength {compact : Bool} {n : Nat} (h : n < if compact then 2 ^ 63 else 256) :
    Cursor.Delimits (readLength compact) (writeLength compact n) n := by
  cases compact with
  | true =>
    have hadmits : Tag.Admits .unsigned (n : Int) := by
      have hn : n < 2 ^ 63 := h
      simp only [Tag.Admits, Tag.least, Tag.bound]
      omega
    have hsign : ¬(n : Int) < 0 := by omega
    refine (Compact.delimits_next hadmits).returning fun _ c => ?_
    simp only [if_neg hsign, Int.toNat_natCast]
    rfl
  | false =>
    have hn : (UInt8.ofNat n).toNat = n := UInt8.toNat_ofNat_of_lt' h
    have hlength := (Cursor.delimits_byte (UInt8.ofNat n)).map UInt8.toNat
    rw [hn] at hlength
    exact hlength

theorem delimits_readName {compact latin1 : Bool} {name : String}
    (hchars : latin1 = true → ∀ c ∈ name.toList, c.toNat < 256)
    (hlength : (nameBytes latin1 name).length < if compact then 2 ^ 63 else 256) :
    Cursor.Delimits (readName compact latin1) (writeName compact latin1 name) name := by
  refine (delimits_readLength hlength).bind fun _ => ?_
  refine (Cursor.delimits_take rfl).returning fun _ c => ?_
  cases latin1 with
  | true =>
    have hname : Bytes.latin1 (nameBytes true name) = name := latin1_ofLatin1 (hchars rfl)
    simp only [if_true, hname]
    rfl
  | false =>
    have hname : Text.Utf8.decode? (nameBytes false name) = some name :=
      Text.Utf8.decode?_encode name
    simp only [Bool.false_eq_true, if_false, hname]
    rfl

/-! ### Reading a table -/

def readNames (latin1 : Bool) (c : Cursor) : Except Fault (List String × Cursor) := do
  let (bs, c) ← c.take 4
  Cursor.many (readName (toIntBE bs < 0) latin1) (toIntBE bs).natAbs c

theorem parse_eq_readNames (latin1 : Bool) (chunk : Bytes) :
    parse latin1 chunk = (readNames latin1 ⟨0, chunk⟩).map fun found => ⟨found.1⟩ := by
  unfold parse readNames
  rw [Cursor.ofOffset, List.drop_zero]
  cases Cursor.take 4 ⟨0, chunk⟩ with
  | error e => rfl
  | ok found =>
    obtain ⟨bs, c⟩ := found
    simp only [ok_bind]
    cases Cursor.many (readName (toIntBE bs < 0) latin1) (toIntBE bs).natAbs c with
    | error e => rfl
    | ok names => rfl

section Written

variable {compact latin1 : Bool} {names : List String} (h : Writable compact latin1 names)
include h

theorem toIntBE_signedCount :
    toIntBE (ofIntBE 4 (signedCount compact names.length)) = signedCount compact names.length := by
  have hcount := h.count
  apply toIntBE_ofIntBE 3 <;> unfold signedCount <;> split <;> omega

theorem signedCount_neg : decide (signedCount compact names.length < 0) = compact := by
  unfold signedCount
  cases compact with
  | true =>
    have hpos := List.length_pos_iff.mpr (h.nonempty rfl)
    rw [if_pos rfl, decide_eq_true]
    omega
  | false =>
    rw [if_neg Bool.false_ne_true, decide_eq_false]
    omega

theorem delimits_readNames :
    Cursor.Delimits (readNames latin1) (write compact latin1 names) names := by
  have habs : (signedCount compact names.length).natAbs = names.length := by
    unfold signedCount
    split <;> omega
  have hnames : Cursor.Delimits (Cursor.many (readName compact latin1) names.length)
      (names.flatMap (writeName compact latin1)) (names.map id) := by
    apply Cursor.delimits_many
    intro name hname
    exact delimits_readName (fun hlatin => h.chars hlatin name hname) (h.lengths name hname)
  rw [List.map_id] at hnames
  refine (Cursor.delimits_take (length_ofIntBE 4 _)).bind fun _ => ?_
  simp only [toIntBE_signedCount h, signedCount_neg h, habs]
  exact hnames

theorem parse_write_append (suf : Bytes) :
    parse latin1 (write compact latin1 names ++ suf) = .ok ⟨names⟩ := by
  rw [parse_eq_readNames, (delimits_readNames h).reads]
  rfl

theorem parse_write_take {k : Nat} (hk : k < (write compact latin1 names).length) :
    ∃ place, parse latin1 ((write compact latin1 names).take k) = .error (.truncated place) := by
  obtain ⟨place, hread⟩ := (delimits_readNames h).cut 0 hk
  refine ⟨place, ?_⟩
  rw [parse_eq_readNames, hread]
  rfl

end Written

theorem get?_of_lt_length {table : AtomTable} {i : Nat} (h : table.names.length < i) :
    table.get? i = none := by
  cases i with
  | zero => rfl
  | succ i => exact List.getElem?_eq_none (Nat.le_of_lt_succ h)

/-- An atom table is read back in each layout, with any bytes behind it, and its names are found by
their numbers from 1 on. Of a table that breaks off before the end of its last name there is nothing
to be had, not even the names before. -/
theorem parse_write_or_cut (compact latin1 : Bool) (names : List String)
    (h : Writable compact latin1 names) :
    (∀ suf, ∃ table, parse latin1 (write compact latin1 names ++ suf) = .ok table ∧
      table.names = names ∧ table.get? 0 = none ∧
      (∀ i (hi : i < names.length), table.get? (i + 1) = some names[i]) ∧
      ∀ i, names.length < i → table.get? i = none) ∧
    ∀ k < (write compact latin1 names).length,
      ∃ place, parse latin1 ((write compact latin1 names).take k) = .error (.truncated place) := by
  constructor
  · intro suf
    refine ⟨⟨names⟩, parse_write_append h suf, rfl, rfl, ?_, ?_⟩
    · intro i hi
      exact List.getElem?_eq_getElem hi
    · intro i hi
      exact get?_of_lt_length hi
  · intro k hk
    exact parse_write_take h hk

-- The last name takes two bytes for its length. Without the second of them the three names are
-- refused, although the first two are complete.
theorem parse_write_or_cut_compact :
    let names := ["m", "größe", "a_rather_long_atom_name"]
    Writable true false names ∧
      (∃ table, parse false (write true false names ++ [0xff]) = .ok table ∧
        table.names = names ∧ table.get? 2 = some "größe" ∧ table.get? 4 = none) ∧
      ∃ place, parse false ((write true false names).take 15) = .error (.truncated place) := by
  intro names
  have hwritable : Writable true false names := by
    refine ⟨by decide, fun _ => by decide, fun hlatin => absurd hlatin (by decide), ?_⟩
    decide +kernel +zetaReduce
  obtain ⟨hread, hcut⟩ := parse_write_or_cut true false names hwritable
  obtain ⟨table, hparse, hnames, -, hget, hnone⟩ := hread [0xff]
  refine ⟨hwritable, ⟨table, hparse, hnames, hget 1 (by decide), hnone 4 (by decide)⟩, ?_⟩
  exact hcut 15 (by decide +kernel +zetaReduce)

end AtomTable

end BeamScope
