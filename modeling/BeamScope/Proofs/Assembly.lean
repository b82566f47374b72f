import BeamScope.Code.Tokens
import BeamScope.Proofs.CompactRoundTrip

/-!
# Assembled code is read back

The assembler writes an instruction as its opcode byte and its operands as compact numbers, the
extended kinds with what goes on behind them. Reading finds the same instructions again; only what
operands refer to is replaced: literals that the literal table has, and the import number at the
place where the opcode has one.
-/

namespace BeamScope

namespace Operand

mutual

/-- The operand with every literal that the table has, at any depth. -/
def withLiterals (literals : Option LiteralTable) : Operand → Operand
  | .literalRef n =>
    match literals.bind (·.get? n) with
    | some term => .literal term
    | none => .literalRef n
  | .typed reg typeIndex => .typed (withLiterals literals reg) typeIndex
  | .list items => .list (withLiteralsAll literals items)
  | o => o

def withLiteralsAll (literals : Option LiteralTable) : List Operand → List Operand
  | [] => []
  | o :: os => withLiterals literals o :: withLiteralsAll literals os

end

end Operand

namespace Code

open BeamScope.Compact Operand

/-! ### The assembler -/

/-- The number of an atom: its place in the table, counted from 1. -/
def atomNumber (atoms : AtomTable) (name : String) : Nat := atoms.names.idxOf name + 1

/-- The kind of an extended operand. -/
def kind (k : Nat) : Bytes := encode .extended k

/-- An untagged number. -/
def count (n : Nat) : Bytes := encode .unsigned n

/-- The entries of an allocation list, one of each kind. -/
def allocEntries (need : AllocList) : Bytes :=
  (count 0 ++ count need.words) ++ (count 1 ++ count need.floats) ++ (count 2 ++ count need.funs)

mutual

/-- The bytes of an operand. -/
def assemble (atoms : AtomTable) : Operand → Bytes
  | .unsigned n => count n
  | .integer v => encode .integer v
  | .nil => encode .atom 0
  | .atom name => encode .atom (atomNumber atoms name)
  | .x n => encode .x n
  | .y n => encode .y n
  | .label n => encode .label n
  | .list items => kind 1 ++ count items.length ++ assembleAll atoms items
  | .floatReg n => kind 2 ++ count n
  | .alloc need => kind 3 ++ count 3 ++ allocEntries need
  | .literalRef n => kind 4 ++ count n
  | .typed reg typeIndex => kind 5 ++ assemble atoms reg ++ count typeIndex
  | _ => []

/-- The bytes of operands, one behind the other. -/
def assembleAll (atoms : AtomTable) : List Operand → Bytes
  | [] => []
  | o :: os => assemble atoms o ++ assembleAll atoms os

end

mutual

/-- Whether an operand can be written: its numbers fit their fields, its atoms are in the table, and
it is of a kind that code chunks have. -/
def writable (atoms : AtomTable) : Operand → Bool
  | .unsigned n => isInt64 n
  | .integer v => isInt64 v
  | .nil => true
  | .atom name => atoms.names.contains name && isInt64 (atomNumber atoms name)
  | .x n => isUInt32 n
  | .y n => isUInt32 n
  | .label n => isUInt32 n
  | .list items => isInt64 items.length && writableAll atoms items
  | .floatReg n => isUInt32 n
  | .alloc need => isUInt32 need.words && isUInt32 need.floats && isUInt32 need.funs
  | .literalRef n => isUInt32 n
  | .typed reg typeIndex => writable atoms reg && isUInt32 typeIndex
  | _ => false

def writableAll (atoms : AtomTable) : List Operand → Bool
  | [] => true
  | o :: os => writable atoms o && writableAll atoms os

end

/-! ### Numbers -/

theorem admits_nat (tag : Tag) {n : Nat} (ht : tag ≠ .extended) (h : isInt64 n = true) :
    tag.Admits n := by
  simp only [isInt64, Bool.and_eq_true, decide_eq_true_eq] at h
  cases tag with
  | extended => exact absurd rfl ht
  | _ =>
    simp only [Tag.Admits, Tag.least, Tag.bound]
    omega

theorem isInt64_of_isUInt32 {n : Nat} (h : isUInt32 n = true) : isInt64 n = true := by
  simp only [isUInt32, decide_eq_true_eq] at h
  simp only [isInt64, Bool.and_eq_true, decide_eq_true_eq]
  omega

theorem length_kind_pos (k : Nat) : 0 < (kind k).length :=
  List.length_pos_iff.mpr (encode_ne_nil .extended k)

theorem reads_kind {k : Nat} (h : k < 16) :
    Cursor.Reads next (kind k) ⟨.extended, k⟩ := by
  refine reads_next ?_
  simp only [Tag.Admits, Tag.least, Tag.bound]
  omega

theorem reads_readUnsigned {n : Nat} (h : isInt64 n = true) :
    Cursor.Reads readUnsigned (count n) n := by
  intro pos suf
  have hn := reads_next (admits_nat .unsigned (by decide) h) pos suf
  simp only [readUnsigned, count, hn, ok_bind, if_true, Int.toNat_natCast]
  rfl

theorem small_of_isUInt32 {n : Nat} (h : isUInt32 n = true) (offset : Nat) :
    small offset n = .ok n := by
  simp only [small, h, if_true]

theorem reads_readSmall {n : Nat} (h : isUInt32 n = true) (offset : Nat) :
    Cursor.Reads (readSmall offset) (count n) n := by
  intro pos suf
  simp only [readSmall, reads_readUnsigned (isInt64_of_isUInt32 h) pos suf, ok_bind,
    small_of_isUInt32 h]
  rfl

theorem get?_atomNumber {atoms : AtomTable} {name : String}
    (h : atoms.names.contains name = true) : atoms.get? (atomNumber atoms name) = some name := by
  have hm : name ∈ atoms.names := by simpa using h
  simp only [atomNumber, AtomTable.get?]
  rw [List.getElem?_eq_getElem (List.idxOf_lt_length_of_mem hm), List.getElem_idxOf]

/-! ### Operands -/

theorem assemble_ne_nil {atoms : AtomTable} {o : Operand} (h : writable atoms o = true) :
    assemble atoms o ≠ [] := by
  cases o with
  | list _ | floatReg _ | alloc _ | literalRef _ | typed _ _ =>
    simp [assemble, kind, encode_ne_nil]
  | float _ | literal _ | extFunc _ | tuple _ | other _ => simp [writable] at h
  | _ => exact encode_ne_nil _ _

theorem length_assemble_pos {atoms : AtomTable} {o : Operand} (h : writable atoms o = true) :
    0 < (assemble atoms o).length :=
  List.length_pos_iff.mpr (assemble_ne_nil h)

theorem length_le_assembleAll {atoms : AtomTable} {os : List Operand}
    (h : writableAll atoms os = true) : os.length ≤ (assembleAll atoms os).length := by
  induction os with
  | nil => exact Nat.zero_le _
  | cons o os ih =>
    simp only [writableAll, Bool.and_eq_true] at h
    have ho := length_assemble_pos h.1
    have hos := ih h.2
    simp only [assembleAll, List.length_cons, List.length_append]
    omega

theorem readAllocs_entry (offset left : Nat) (need : AllocList) {k v : Nat} {need' : AllocList}
    (h : k = 0 ∧ need' = { need with words := v } ∨ k = 1 ∧ need' = { need with floats := v } ∨
      k = 2 ∧ need' = { need with funs := v }) (hv : isUInt32 v = true) (pos : Nat) (suf : Bytes) :
    readAllocs offset (left + 1) need ⟨pos, count k ++ (count v ++ suf)⟩ =
      readAllocs offset left need' ⟨pos + ((count k).length + (count v).length), suf⟩ := by
  have hk : isInt64 k = true := by
    obtain ⟨rfl, -⟩ | ⟨rfl, -⟩ | ⟨rfl, -⟩ := h <;> rfl
  rw [readAllocs, reads_readUnsigned hk pos _, ok_bind]
  dsimp only
  rw [reads_readSmall hv offset _ _, ok_bind, Nat.add_assoc]
  obtain ⟨rfl, rfl⟩ | ⟨rfl, rfl⟩ | ⟨rfl, rfl⟩ := h <;> rfl

theorem reads_readAllocs {need : AllocList} (hw : isUInt32 need.words = true)
    (hf : isUInt32 need.floats = true) (hn : isUInt32 need.funs = true) (offset : Nat) :
    Cursor.Reads (readAllocs offset 3 ⟨0, 0, 0⟩) (allocEntries need) need := by
  intro pos suf
  have hwords := readAllocs_entry offset 2 ⟨0, 0, 0⟩ (Or.inl ⟨rfl, rfl⟩) hw
  have hfloats := readAllocs_entry offset 1 ⟨need.words, 0, 0⟩
    (Or.inr (Or.inl ⟨rfl, rfl⟩)) hf
  have hfuns := readAllocs_entry offset 0 ⟨need.words, need.floats, 0⟩
    (Or.inr (Or.inr ⟨rfl, rfl⟩)) hn
  simp only [allocEntries, List.append_assoc, List.length_append]
  rw [hwords, hfloats, hfuns]
  simp only [readAllocs, Nat.add_assoc]

mutual

theorem reads_readOperand (t : Tables) : (o : Operand) → (fuel : Nat) →
    writable t.atoms o = true → (assemble t.atoms o).length ≤ fuel →
    Cursor.Reads (readOperand t fuel) (assemble t.atoms o) (o.withLiterals t.literals)
  | o, 0 => by
    intro h hf
    have hp := length_assemble_pos h
    omega
  | .unsigned n, fuel + 1 => by
    intro h _ pos suf
    have hn := reads_next (admits_nat .unsigned (by decide) h) pos suf
    simp only [readOperand, assemble, count, hn, ok_bind, Int.toNat_natCast, withLiterals]
    rfl
  | .integer v, fuel + 1 => by
    intro h _ pos suf
    have ha : Tag.Admits .integer v := by
      simpa [writable, isInt64, Tag.Admits, Tag.least, Tag.bound] using h
    simp only [readOperand, assemble, reads_next ha pos suf, ok_bind, withLiterals]
    rfl
  | .nil, fuel + 1 => by
    intro _ _ pos suf
    have ha : Tag.Admits .atom 0 := by decide
    simp only [readOperand, assemble, reads_next ha pos suf, ok_bind, withLiterals]
    rfl
  | .atom name, fuel + 1 => by
    intro h _ pos suf
    simp only [writable, Bool.and_eq_true] at h
    have hn := reads_next (admits_nat .atom (by decide) h.2) pos suf
    have hz : ¬atomNumber t.atoms name = 0 := Nat.succ_ne_zero _
    simp only [readOperand, assemble, hn, ok_bind, Int.toNat_natCast, if_neg hz,
      get?_atomNumber h.1, withLiterals]
    rfl
  | .x n, fuel + 1 => by
    intro h _ pos suf
    have hn := reads_next (admits_nat .x (by decide) (isInt64_of_isUInt32 h)) pos suf
    simp only [readOperand, assemble, hn, ok_bind, Int.toNat_natCast, small_of_isUInt32 h,
      withLiterals]
    rfl
  | .y n, fuel + 1 => by
    intro h _ pos suf
    have hn := reads_next (admits_nat .y (by decide) (isInt64_of_isUInt32 h)) pos suf
    simp only [readOperand, assemble, hn, ok_bind, Int.toNat_natCast, small_of_isUInt32 h,
      withLiterals]
    rfl
  | .label n, fuel + 1 => by
    intro h _ pos suf
    have hn := reads_next (admits_nat .label (by decide) (isInt64_of_isUInt32 h)) pos suf
    simp only [readOperand, assemble, hn, ok_bind, Int.toNat_natCast, small_of_isUInt32 h,
      withLiterals]
    rfl
  | .floatReg n, fuel + 1 => by
    intro h _ pos suf
    simp only [readOperand, assemble, List.append_assoc, reads_kind (k := 2) (by decide) pos _,
      ok_bind, Int.toNat_natCast, reads_readSmall h _ _ _, withLiterals, List.length_append,
      Nat.add_assoc]
    rfl
  | .alloc need, fuel + 1 => by
    intro h _ pos suf
    simp only [writable, Bool.and_eq_true] at h
    have hc := reads_readUnsigned (n := 3) (by decide)
    have ha := reads_readAllocs h.1.1 h.1.2 h.2
    simp only [readOperand, assemble, List.append_assoc, reads_kind (k := 3) (by decide) pos _,
      ok_bind, Int.toNat_natCast, hc _ _, ha _ _ _, withLiterals, List.length_append,
      Nat.add_assoc]
    rfl
  | .literalRef n, fuel + 1 => by
    intro h _ pos suf
    simp only [readOperand, assemble, List.append_assoc, reads_kind (k := 4) (by decide) pos _,
      ok_bind, Int.toNat_natCast, reads_readSmall h _ _ _, withLiterals, List.length_append,
      Nat.add_assoc]
    cases t.literals.bind (·.get? n) with
    | none => rfl
    | some term => rfl
  | .typed reg typeIndex, fuel + 1 => by
    intro h hf pos suf
    simp only [writable, Bool.and_eq_true] at h
    have hk := length_kind_pos 5
    simp only [assemble, List.length_append] at hf
    have hr := reads_readOperand t reg fuel h.1 (by omega)
    simp only [readOperand, assemble, List.append_assoc, reads_kind (k := 5) (by decide) pos _,
      ok_bind, Int.toNat_natCast, hr _ _, reads_readSmall h.2 _ _ _, withLiterals,
      List.length_append, Nat.add_assoc]
    rfl
  | .list items, fuel + 1 => by
    intro h hf pos suf
    simp only [writable, Bool.and_eq_true] at h
    have hk := length_kind_pos 1
    simp only [assemble, List.length_append] at hf
    have hr := reads_readOperands t items fuel h.2 (by omega)
    -- Every element takes a byte at least, so the length can never fail its check.
    have hh : Bytes.holds items.length (assembleAll t.atoms items ++ suf) = true := by
      rw [Bytes.holds_iff, List.length_append]
      exact Nat.le_trans (length_le_assembleAll h.2) (Nat.le_add_right _ _)
    simp only [readOperand, assemble, List.append_assoc, reads_kind (k := 1) (by decide) pos _,
      ok_bind, Int.toNat_natCast, reads_readUnsigned h.1 _ _, hh, Bool.not_true, Bool.and_false,
      Bool.false_eq_true, if_false, hr _ _, withLiterals, List.length_append, Nat.add_assoc]
    rfl
  | .float _, _ + 1 => by simp [writable]
  | .literal _, _ + 1 => by simp [writable]
  | .extFunc _, _ + 1 => by simp [writable]
  | .tuple _, _ + 1 => by simp [writable]
  | .other _, _ + 1 => by simp [writable]

theorem reads_readOperands (t : Tables) : (os : List Operand) → (fuel : Nat) →
    writableAll t.atoms os = true → (assembleAll t.atoms os).length ≤ fuel →
    Cursor.Reads (Cursor.many (readOperand t fuel) os.length) (assembleAll t.atoms os)
      (withLiteralsAll t.literals os)
  | [], fuel => by
    intro _ _ pos suf
    rfl
  | o :: os, fuel => by
    intro h hf
    simp only [writableAll, Bool.and_eq_true] at h
    simp only [assembleAll, List.length_append] at hf
    have ho := reads_readOperand t o fuel h.1 (by omega)
    have hos := reads_readOperands t os fuel h.2 (by omega)
    exact Cursor.reads_many_cons ho hos

end

/-! ### Instructions -/

def assembleInstruction (atoms : AtomTable) (i : RawInstruction) : Bytes :=
  i.opcode :: assembleAll atoms i.operands

/-- The bytes of instructions, one behind the other. -/
def assembleCode (atoms : AtomTable) (is : List RawInstruction) : Bytes :=
  is.flatMap (assembleInstruction atoms)

/-- Whether an instruction can be written: its opcode is in the table and takes as many operands. -/
def writableInstruction (atoms : AtomTable) (i : RawInstruction) : Bool :=
  (Opcode.lookup i.opcode).any (fun info => i.operands.length == info.arity) &&
    writableAll atoms i.operands

/-- The instruction with every literal that the table has. -/
def loaded (t : Tables) (i : RawInstruction) : RawInstruction :=
  ⟨i.opcode, withLiteralsAll t.literals i.operands⟩

theorem reads_readInstruction (t : Tables) {i : RawInstruction}
    (h : writableInstruction t.atoms i = true) :
    Cursor.Reads (readInstruction t) (assembleInstruction t.atoms i) (loaded t i) := by
  intro pos suf
  simp only [writableInstruction, Bool.and_eq_true, Option.any_eq_true, beq_iff_eq] at h
  obtain ⟨⟨info, hinfo, harity⟩, hw⟩ := h
  have hos := reads_readOperands t i.operands (assembleAll t.atoms i.operands ++ suf).length hw
    (by rw [List.length_append]; omega)
  simp only [readInstruction, assembleInstruction, List.cons_append, Cursor.byte_cons, ok_bind,
    hinfo, ← harity, hos _ _, List.length_cons, loaded]
  rw [Nat.add_right_comm, Nat.add_assoc]
  rfl

/-- Reading the instructions that were written stops behind the last of them. -/
theorem stream_assembleCode (t : Tables) (is : List RawInstruction) (rest : Bytes)
    (hw : ∀ i ∈ is, writableInstruction t.atoms i = true)
    (hmark : ∀ i ∈ is.dropLast, i.isCodeEnd = false)
    (hrest : rest = [] ∨ ∃ i, is.getLast? = some i ∧ i.isCodeEnd = true)
    (fuel pos : Nat) (hf : (assembleCode t.atoms is).length ≤ fuel) :
    (stream t fuel ⟨pos, assembleCode t.atoms is ++ rest⟩).fault = none ∧
      (stream t fuel ⟨pos, assembleCode t.atoms is ++ rest⟩).items.map Prod.snd =
        is.map (loaded t) := by
  induction is generalizing fuel pos with
  | nil =>
    have hr : rest = [] := by simpa using hrest
    subst hr
    cases fuel <;> simp [stream, assembleCode]
  | cons i is ih =>
    simp only [assembleCode, List.flatMap_cons, List.length_append] at hf
    have hpos : 0 < (assembleInstruction t.atoms i).length := Nat.succ_pos _
    obtain ⟨fuel, rfl⟩ : ∃ k, fuel = k + 1 := ⟨fuel - 1, by omega⟩
    have hi := reads_readInstruction t (hw i (List.mem_cons_self ..)) pos
      (assembleCode t.atoms is ++ rest)
    have hne : (assembleInstruction t.atoms i ++ (assembleCode t.atoms is ++ rest)).isEmpty = false :=
      rfl
    have hcode : assembleCode t.atoms (i :: is) ++ rest =
        assembleInstruction t.atoms i ++ (assembleCode t.atoms is ++ rest) := by
      simp [assembleCode]
    have hl : (loaded t i).isCodeEnd = i.isCodeEnd := rfl
    rw [hcode]
    simp only [stream, hne, Bool.false_eq_true, if_false, hi, hl]
    cases he : i.isCodeEnd with
    | true =>
      -- The end mark is never followed by another instruction.
      have hnil : is = [] := by
        cases is with
        | nil => rfl
        | cons j js =>
          have hm := hmark i (by simp)
          rw [he] at hm
          exact absurd hm (by decide)
      subst hnil
      simp
    | false =>
      have hmark' : ∀ j ∈ is.dropLast, j.isCodeEnd = false := by
        intro j hj
        cases is with
        | nil => simp at hj
        | cons k ks => exact hmark j (by simp [hj])
      have hrest' : rest = [] ∨ ∃ j, is.getLast? = some j ∧ j.isCodeEnd = true := by
        cases is with
        | nil => simpa [he] using hrest
        | cons k ks => simpa using hrest
      have hih := ih (fun j hj => hw j (List.mem_cons_of_mem _ hj)) hmark' hrest' fuel
        (pos + (assembleInstruction t.atoms i).length) (by simp only [assembleCode]; omega)
      simpa [Run.cons] using hih

/-! ### References -/

/-- An import number replaced by the function it means, if the tables have that. -/
def importOf (t : Tables) : Operand → Operand
  | .unsigned index => ((t.imports.resolve index t.atoms).map .extFunc).getD (.unsigned index)
  | o => o

/-- The instruction with the import number at the place where its opcode has one resolved. -/
def withImport (t : Tables) (i : RawInstruction) : RawInstruction :=
  match i.info.importOperand with
  | none => i
  | some position => { i with operands := i.operands.modify position (importOf t) }

theorem opcode_withImport (t : Tables) (i : RawInstruction) :
    (withImport t i).opcode = i.opcode := by
  unfold withImport
  split <;> rfl

theorem value_resolveImport (t : Tables) (offset : Nat) (i : RawInstruction) :
    (resolveImport t offset i).value = withImport t i := by
  unfold resolveImport withImport
  cases i.info.importOperand with
  | none => rfl
  | some position =>
    dsimp only
    cases ho : i.operands[position]? with
    | none =>
      rw [List.modify_eq_self (List.getElem?_eq_none_iff.mp ho)]
      rfl
    | some o =>
      have hm : i.operands.modify position (importOf t) =
          i.operands.set position (importOf t o) := by
        rw [List.modify_eq_set, ho, Option.getD_some]
      have hself : i.operands.set position o = i.operands := by
        obtain ⟨hlt, rfl⟩ := List.getElem?_eq_some_iff.mp ho
        exact List.set_getElem_self hlt
      rw [hm]
      cases o with
      | unsigned index =>
        simp only [importOf]
        cases t.imports.resolve index t.atoms with
        | none =>
          simp only [Option.map_none, Option.getD_none, hself]
        | some f => rfl
      | _ =>
        simp only [importOf, hself]
        rfl

theorem value_instructions (t : Tables) (data : Bytes) (offset : Nat) :
    (instructions t data offset).value =
      let c := Cursor.ofOffset data offset
      let run := stream t c.rest.length c
      Run.toExcept ⟨(run.items.map Prod.snd).map (withImport t), run.fault⟩ := by
  simp only [instructions, Noted.value_traverse, value_resolveImport, List.map_map]
  rfl

/-- An instruction as it is read: literals that the table has are put in, and the import number at
the place where the opcode has one is resolved. -/
def linked (t : Tables) (i : RawInstruction) : RawInstruction := withImport t (loaded t i)

/-- Reading undoes assembling: behind any bytes, with any tables, the instructions that were written
are read, with nothing replaced but literal and import numbers. The end mark may stand only last;
then anything may follow it. -/
theorem instructions_assembleCode (t : Tables) (pre rest : Bytes) (is : List RawInstruction)
    (hw : ∀ i ∈ is, writableInstruction t.atoms i = true)
    (hmark : ∀ i ∈ is.dropLast, i.isCodeEnd = false)
    (hrest : rest = [] ∨ ∃ i, is.getLast? = some i ∧ i.isCodeEnd = true) :
    (instructions t (pre ++ assembleCode t.atoms is ++ rest) pre.length).value =
      .ok (is.map (linked t)) := by
  obtain ⟨hfault, hitems⟩ := stream_assembleCode t is rest hw hmark hrest
    (assembleCode t.atoms is ++ rest).length pre.length (by rw [List.length_append]; omega)
  rw [value_instructions]
  simp only [Cursor.ofOffset, List.append_assoc, List.drop_left, Run.toExcept, hfault, hitems,
    List.map_map]
  rfl

-- An import, a literal inside a list, a literal that the table does not have, and an end mark with a
-- byte behind it.
theorem instructions_assembleCode_call :
    let t : Tables := ⟨⟨["m", "f"]⟩, ⟨[⟨1, 2, 0⟩]⟩, some ⟨[some .nil]⟩, true⟩
    let code : List RawInstruction :=
      [⟨7, [.unsigned 0, .unsigned 0]⟩,
        ⟨64, [.list [.literalRef 0, .atom "f"], .typed (.literalRef 1) 3]⟩, ⟨3, []⟩]
    (instructions t ([0x2a] ++ assembleCode t.atoms code ++ [0xff]) 1).value =
      .ok [⟨7, [.unsigned 0, .extFunc ⟨"m", "f", 0⟩]⟩,
        ⟨64, [.list [.literal .nil, .atom "f"], .typed (.literalRef 1) 3]⟩, ⟨3, []⟩] := by
  intro t code
  exact instructions_assembleCode t [0x2a] [0xff] code (by decide +kernel +zetaReduce)
    (by decide +kernel +zetaReduce) (Or.inr ⟨⟨3, []⟩, rfl, rfl⟩)

end Code

end BeamScope
