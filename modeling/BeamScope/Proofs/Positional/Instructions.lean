import BeamScope.Proofs.FunctionSplit
import BeamScope.Proofs.Positional.Tables

/-!
# Instructions by position

Operands refer back: to the byte where a number of the wrong kind started, to the operand that the
opcode says is an import. The first was read before, and the second is there because an instruction
has as many operands as its opcode takes.
-/

namespace BeamScope.Positional

open Bytes Code

/-! ### The header -/

def parseCodeHeader (data : Bytes) : Checked CodeHeader := do
  let size ← word data 0
  let codeOffset ← add 4 size
  if size < 16 ∨ data.length < codeOffset then fail (.truncated data.length)
  else
    let instructionSet ← word data 4
    let maxOpcode ← word data 8
    let labelCount ← word data 12
    let functionCount ← word data 16
    return ⟨instructionSet, maxOpcode, labelCount, functionCount, codeOffset⟩

theorem parseCodeHeader_eq {data : Bytes} (hlen : data.length < 2 ^ 63) :
    parseCodeHeader data = returned (CodeHeader.parse data) := by
  obtain ⟨size, hw, -, hsize, hc⟩ | ⟨hw, hc⟩ := word_cases (Nat.zero_le data.length) hlen
  · simp only [parseCodeHeader, CodeHeader.parse, hw, hc, checked_ok_bind, ok_bind,
      add_eq_ok (show 4 + size < 2 ^ 64 by omega)]
    split
    · rfl
    · next hfit =>
      -- The size covers the four numbers behind it.
      have hword (pos : Nat) (hpos : pos + 4 ≤ 20) :
          ∃ n, word data pos = .ok n ∧
            (Cursor.ofOffset data pos).word 4 = .ok (n, Cursor.ofOffset data (pos + 4)) := by
        obtain ⟨n, hw, -, -, hc⟩ | ⟨hw, hc⟩ := word_cases (show pos ≤ data.length by omega) hlen
        · exact ⟨n, hw, hc⟩
        · rw [word_eq_ok hlen (by omega)] at hw
          cases hw
      obtain ⟨a, ha, hca⟩ := hword 4 (by omega)
      obtain ⟨b, hb, hcb⟩ := hword 8 (by omega)
      obtain ⟨c, hc', hcc⟩ := hword 12 (by omega)
      obtain ⟨d, hd, hcd⟩ := hword 16 (by omega)
      simp only [ha, hb, hc', hd, hca, hcb, hcc, hcd, checked_ok_bind, ok_bind, Nat.zero_add]
      rfl
  · simp only [parseCodeHeader, CodeHeader.parse, hw, hc, fail_bind, error_bind, returned_error]

/-! ### Operands -/

/-- A signed number of 64 bits taken as an unsigned one. -/
def asUInt64 (v : Int) : Nat := (v % 2 ^ 64).toNat

/-- A number that has to be unsigned; the first byte of any other is shown. -/
def unsigned (data : Bytes) (pos : Nat) : Checked (Nat × Nat) := do
  let (item, after) ← next data pos
  if item.tag ≠ .unsigned ∨ item.value < 0 then
    let b ← index data pos
    fail (.badTag b pos)
  else return (asUInt64 item.value, after)

def small (offset : Nat) (v : Int) : Checked Nat :=
  if 0 ≤ v ∧ v < 2 ^ 32 then .ok v.toNat else fail (.overflow offset)

def smallUnsigned (data : Bytes) (offset pos : Nat) : Checked (Nat × Nat) := do
  let (n, pos) ← unsigned data pos
  return (← small offset n, pos)

def allocs (data : Bytes) (offset : Nat) : Nat → AllocList → Nat → Checked (AllocList × Nat)
  | 0, need, pos => .ok (need, pos)
  | count + 1, need, pos => do
    let (kind, pos) ← unsigned data pos
    let (value, pos) ← smallUnsigned data offset pos
    match kind with
    | 0 => allocs data offset count { need with words := value } pos
    | 1 => allocs data offset count { need with floats := value } pos
    | 2 => allocs data offset count { need with funs := value } pos
    | kind => fail (.unsupportedOperand kind offset)

-- At most `frames` calls are open at once: a list or a typed register holds operands.
def operand (t : Tables) (data : Bytes) : (frames pos : Nat) → Checked (Operand × Nat)
  | 0, _ => .error .exhausted
  | frames + 1, pos => do
    let offset := pos
    let (item, pos) ← next data pos
    match item.tag with
    | .unsigned => return (.unsigned (asUInt64 item.value), pos)
    | .integer => return (.integer item.value, pos)
    | .char => return (.integer item.value, pos)
    | .atom =>
      if item.value = 0 then return (.nil, pos)
      else
        match t.atoms.get? (asUInt64 item.value) with
        | some name => return (.atom name, pos)
        | none => fail (.indexOutOfRange "atom" (asUInt64 item.value))
    | .x => return (.x (← small offset item.value), pos)
    | .y => return (.y (← small offset item.value), pos)
    | .label => return (.label (← small offset item.value), pos)
    | .extended =>
      match asUInt64 item.value with
      | 1 =>
        let (len, pos) ← unsigned data pos
        let left ← sub data.length pos
        if left < len then fail (.truncated offset)
        else
          let (items, pos) ← many (operand t data frames) len pos
          return (.list items, pos)
      | 2 =>
        let (i, pos) ← smallUnsigned data offset pos
        return (.floatReg i, pos)
      | 3 =>
        let (count, pos) ← unsigned data pos
        let (need, pos) ← allocs data offset count ⟨0, 0, 0⟩ pos
        return (.alloc need, pos)
      | 4 =>
        let (i, pos) ← smallUnsigned data offset pos
        match t.literals.bind (·.get? i) with
        | some term => return (.literal term, pos)
        | none => return (.literalRef i, pos)
      | 5 =>
        let (reg, pos) ← operand t data frames pos
        let (typeIndex, pos) ← smallUnsigned data offset pos
        return (.typed reg typeIndex, pos)
      | kind => fail (.unsupportedOperand kind offset)

theorem asUInt64_eq {v : Int} (h : 0 ≤ v ∧ v < 2 ^ 63) : asUInt64 v = v.toNat := by
  rw [asUInt64, Int.emod_eq_of_lt h.1 (by omega)]

theorem small_eq (offset : Nat) {v : Int} (h : 0 ≤ v) :
    small offset v = returned (Code.small offset v.toNat) := by
  simp only [small, Code.small, isUInt32, decide_eq_true_eq]
  by_cases hlt : v < 2 ^ 32
  · rw [if_pos ⟨h, hlt⟩, if_pos (by omega)]
    rfl
  · rw [if_neg (by omega), if_neg (by omega)]
    rfl

section Operands

variable {data : Bytes} (hlen : data.length < 2 ^ 63) {pos : Nat} (hpos : pos ≤ data.length)
include hlen hpos

theorem agrees_unsigned :
    Agrees data (pos + 1) (unsigned data pos) (readUnsigned (Cursor.ofOffset data pos)) := by
  refine (agrees_next hlen hpos).bind fun item after hitem hafter hend => ?_
  by_cases ht : item.tag = .unsigned
  · have hv : 0 ≤ item.value := nonneg_of_next hitem (by rw [ht]; decide)
    have hbad : ¬(item.tag ≠ .unsigned ∨ item.value < 0) := by
      rintro (hne | hneg)
      · exact hne ht
      · omega
    simp only [if_neg hbad, if_pos ht, asUInt64_eq ⟨hv, (int64_of_next hitem).2⟩]
    exact Agrees.ok _ hafter hend
  · -- A number was read here, so there is a byte to show.
    have hlt : pos < data.length := by omega
    have hhead : (Cursor.ofOffset data pos).rest.headD 0 = data[pos] := by
      simp only [Cursor.ofOffset, List.drop_eq_getElem_cons hlt, List.headD_cons]
    simp only [if_pos (show item.tag ≠ .unsigned ∨ item.value < 0 from Or.inl ht), if_neg ht,
      index_eq_ok (List.getElem?_eq_getElem hlt), checked_ok_bind, hhead]
    exact Agrees.fail _ _

theorem agrees_smallUnsigned (offset : Nat) :
    Agrees data (pos + 1) (smallUnsigned data offset pos)
      (readSmall offset (Cursor.ofOffset data pos)) := by
  refine (agrees_unsigned hlen hpos).bind fun n after _ hafter hend => ?_
  refine Agrees.after (small_eq offset (Int.natCast_nonneg n)) fun a => ?_
  exact Agrees.ok a hafter hend

end Operands

theorem agrees_allocs {data : Bytes} (hlen : data.length < 2 ^ 63) (offset count : Nat)
    (need : AllocList) {pos : Nat} (hpos : pos ≤ data.length) :
    Agrees data pos (allocs data offset count need pos)
      (readAllocs offset count need (Cursor.ofOffset data pos)) := by
  induction count generalizing need pos with
  | zero => exact Agrees.ok need (Nat.le_refl _) hpos
  | succ count ih =>
    refine (agrees_unsigned hlen hpos).bind fun kind after _ hafter hend => ?_
    refine (agrees_smallUnsigned hlen hend offset).bind fun value last _ hlast hend => ?_
    rcases kind with _ | _ | _ | kind
    · exact (ih _ hend).mono (by omega)
    · exact (ih _ hend).mono (by omega)
    · exact (ih _ hend).mono (by omega)
    · exact Agrees.fail _ _

/-- Every operand takes at least a byte, so the bytes that are left are enough calls for one and
enough fuel for the other. -/
theorem agrees_operand (t : Tables) (ht : t.checkCounts = true) {data : Bytes}
    (hlen : data.length < 2 ^ 63) {frames fuel pos : Nat} (hpos : pos ≤ data.length)
    (hframes : data.length - pos < frames) (hfuel : data.length - pos ≤ fuel) :
    Agrees data pos (operand t data frames pos) (readOperand t fuel (Cursor.ofOffset data pos)) := by
  induction frames generalizing fuel pos with
  | zero => omega
  | succ frames ih =>
    cases fuel with
    | zero =>
      have hread : Compact.next (Cursor.ofOffset data pos) = .error (.truncated pos) := by
        have hdrop : data.drop pos = [] := by
          rw [List.drop_eq_nil_iff]
          omega
        simp only [Cursor.ofOffset, hdrop]
        rfl
      have hnext : next data pos = fail (.truncated pos) := by
        have h := agrees_next hlen hpos
        rwa [hread] at h
      simp only [operand, hnext, fail_bind]
      exact Agrees.fail _ _
    | succ fuel =>
      rw [operand, readOperand]
      refine (agrees_next hlen hpos).bind fun item after hitem hafter hend => ?_
      have hmax := (int64_of_next hitem).2
      have hnonneg := nonneg_of_next hitem
      have hinner (p : Nat) (hp : after ≤ p) (hp' : p ≤ data.length) :
          Agrees data p (operand t data frames p) (readOperand t fuel (Cursor.ofOffset data p)) :=
        ih hp' (by omega) (by omega)
      dsimp only
      cases htag : item.tag with
      | unsigned =>
        have hv := hnonneg (by rw [htag]; decide)
        simp only [asUInt64_eq ⟨hv, hmax⟩]
        exact Agrees.ok _ (by omega) hend
      | integer => exact Agrees.ok _ (by omega) hend
      | char => exact Agrees.ok _ (by omega) hend
      | atom =>
        have hv := hnonneg (by rw [htag]; decide)
        simp only [asUInt64_eq ⟨hv, hmax⟩]
        by_cases hzero : item.value = 0
        · simp only [if_pos hzero, if_pos (show item.value.toNat = 0 by omega)]
          exact Agrees.ok _ (by omega) hend
        · simp only [if_neg hzero, if_neg (show item.value.toNat ≠ 0 by omega)]
          cases t.atoms.get? item.value.toNat with
          | some name => exact Agrees.ok _ (by omega) hend
          | none => exact Agrees.fail _ _
      | x =>
        have hv := hnonneg (by rw [htag]; decide)
        exact Agrees.after (small_eq pos hv) fun n => Agrees.ok _ (by omega) hend
      | y =>
        have hv := hnonneg (by rw [htag]; decide)
        exact Agrees.after (small_eq pos hv) fun n => Agrees.ok _ (by omega) hend
      | label =>
        have hv := hnonneg (by rw [htag]; decide)
        exact Agrees.after (small_eq pos hv) fun n => Agrees.ok _ (by omega) hend
      | extended =>
        have hv := hnonneg (by rw [htag]; decide)
        simp only [asUInt64_eq ⟨hv, hmax⟩]
        generalize item.value.toNat = kind
        rcases kind with _ | _ | _ | _ | _ | _ | kind
        · exact Agrees.fail _ _
        · refine (agrees_unsigned hlen hend).bind fun len p _ hp hend => ?_
          simp only [ht, holds_ofOffset, Bool.not_not, Bool.true_and, decide_eq_true_eq,
            sub_eq_ok hend, checked_ok_bind]
          by_cases hfit : data.length - p < len
          · simp only [if_pos hfit]
            exact Agrees.fail _ _
          · simp only [if_neg hfit]
            refine (agrees_many hinner len (show after ≤ p by omega) hend).bind
              fun items last _ hlast hend => ?_
            exact Agrees.ok _ (by omega) hend
        · refine (agrees_smallUnsigned hlen hend pos).bind fun i last _ hlast hend => ?_
          exact Agrees.ok _ (by omega) hend
        · refine (agrees_unsigned hlen hend).bind fun count p _ hp hend => ?_
          refine (agrees_allocs hlen pos count ⟨0, 0, 0⟩ hend).bind fun need last _ hlast hend => ?_
          exact Agrees.ok _ (by omega) hend
        · refine (agrees_smallUnsigned hlen hend pos).bind fun i last _ hlast hend => ?_
          dsimp only
          cases t.literals.bind (·.get? i) with
          | some term => exact Agrees.ok _ (by omega) hend
          | none => exact Agrees.ok _ (by omega) hend
        · refine (hinner after (Nat.le_refl _) hend).bind fun reg p _ hp hend => ?_
          refine (agrees_smallUnsigned hlen hend pos).bind fun i last _ hlast hend => ?_
          exact Agrees.ok _ (by omega) hend
        · exact Agrees.fail _ _

/-! ### Instructions -/

/-- Operands with the import that their opcode has among them resolved. -/
def resolved (t : Tables) (info : Opcode) (operands : List Operand) : Checked (List Operand) :=
  match info.importOperand with
  | none => .ok operands
  | some position => do
    let o ← index operands position
    return operands.set position (importOf t o)

def instruction (t : Tables) (data : Bytes) (pos : Nat) : Checked (RawInstruction × Nat) := do
  let opcode ← index data pos
  let info ← orFail (Opcode.lookup opcode) (.unknownOpcode opcode pos)
  let pos ← add pos 1
  let (operands, pos) ← many (operand t data (data.length + 1)) info.arity pos
  let operands ← resolved t info operands
  return (⟨opcode, operands⟩, pos)

/-- Instructions from a position on, as long as there are bytes and no end mark was read. -/
def stream (t : Tables) (data : Bytes) : (steps pos : Nat) → Checked (List RawInstruction)
  | 0, _ => .error .exhausted
  | steps + 1, pos =>
    if pos < data.length then do
      let (i, pos) ← instruction t data pos
      if i.isCodeEnd then return [i]
      else
        let is ← stream t data steps pos
        return i :: is
    else .ok []

def instructions (t : Tables) (data : Bytes) (pos : Nat) : Checked (List RawInstruction) :=
  stream t data (data.length + 1) pos

theorem length_of_many {α : Type} {read : Cursor → Except Fault (α × Cursor)} {n : Nat}
    {c c' : Cursor} {as : List α} (h : Cursor.many read n c = .ok (as, c')) : as.length = n := by
  induction n generalizing c as with
  | zero =>
    cases h
    rfl
  | succ n ih =>
    obtain ⟨found, -, h⟩ := bind_eq_ok h
    obtain ⟨tail, hm, h⟩ := bind_eq_ok h
    cases h
    rw [List.length_cons, ih hm]

theorem resolved_eq (t : Tables) {opcode : UInt8} {info : Opcode}
    (hinfo : Opcode.lookup opcode = some info) {operands : List Operand}
    (harity : operands.length = info.arity) :
    resolved t info operands = .ok (withImport t ⟨opcode, operands⟩).operands := by
  have hdescribe : RawInstruction.info ⟨opcode, operands⟩ = info := by
    simp only [RawInstruction.info, Opcode.describe, hinfo, Option.getD_some]
  have hmem : info ∈ Opcode.table := List.mem_of_find?_eq_some hinfo
  -- The import is one of the operands, in the table and so here.
  have hbound := Opcode.importOperand_lt_arity info hmem
  simp only [resolved, withImport, hdescribe]
  cases hpos : info.importOperand with
  | none => rfl
  | some position =>
    rw [hpos, Option.all_some, decide_eq_true_eq] at hbound
    have hget : operands[position]? = some operands[position] :=
      List.getElem?_eq_getElem (by omega)
    simp only [index_eq_ok hget, checked_ok_bind, pure_eq_ok, List.modify_eq_set, hget,
      Option.getD_some]

theorem agrees_instruction (t : Tables) (ht : t.checkCounts = true) {data : Bytes}
    (hlen : data.length < 2 ^ 63) {pos : Nat} (hpos : pos < data.length) :
    Agrees data (pos + 1) (instruction t data pos)
      (mapped (withImport t) (readInstruction t) (Cursor.ofOffset data pos)) := by
  have hbyte : (Cursor.ofOffset data pos).byte =
      .ok (data[pos], Cursor.ofOffset data (pos + 1)) := by
    simp only [Cursor.byte, Cursor.ofOffset, List.drop_eq_getElem_cons hpos]
  simp only [instruction, mapped, readInstruction, hbyte, ok_bind, checked_ok_bind,
    index_eq_ok (List.getElem?_eq_getElem hpos)]
  cases hinfo : Opcode.lookup data[pos] with
  | none => exact Agrees.fail _ _
  | some info =>
    simp only [orFail_some, checked_ok_bind, add_eq_ok (show pos + 1 < 2 ^ 64 by omega), bind_assoc]
    refine (agrees_many (fun p hstart hp => agrees_operand t ht hlen hp (by omega) ?_) info.arity
      (Nat.le_refl (pos + 1)) hpos).bind fun operands after hmany hafter hend => ?_
    · simp only [Cursor.ofOffset, List.length_drop]
      omega
    · simp only [resolved_eq t hinfo (length_of_many hmany), checked_ok_bind, pure_eq_ok]
      have hopcode : (⟨data[pos], (withImport t ⟨data[pos], operands⟩).operands⟩ : RawInstruction) =
          withImport t ⟨data[pos], operands⟩ :=
        congrArg (RawInstruction.mk · _) (opcode_withImport t ⟨data[pos], operands⟩).symm
      rw [hopcode]
      exact Agrees.ok _ hafter hend

/-- What a run of instructions comes to when its imports are resolved. -/
def linkedRun (t : Tables) (run : Run (Nat × RawInstruction)) : Except Fault (List RawInstruction) :=
  Run.toExcept ⟨(run.items.map Prod.snd).map (withImport t), run.fault⟩

theorem linkedRun_cons (t : Tables) (p : Nat × RawInstruction) (run : Run (Nat × RawInstruction)) :
    linkedRun t (Run.cons p run) = (do
      let is ← linkedRun t run
      return withImport t p.2 :: is) := by
  obtain ⟨items, fault⟩ := run
  cases fault <;> rfl

theorem stream_eq (t : Tables) (ht : t.checkCounts = true) {data : Bytes}
    (hlen : data.length < 2 ^ 63) {steps fuel pos : Nat} (hsteps : data.length - pos < steps)
    (hfuel : data.length - pos ≤ fuel) :
    stream t data steps pos =
      returned (linkedRun t (Code.stream t fuel (Cursor.ofOffset data pos))) := by
  induction steps generalizing fuel pos with
  | zero => omega
  | succ steps ih =>
    by_cases hlt : pos < data.length
    · obtain ⟨fuel, rfl⟩ : ∃ k, fuel = k + 1 := ⟨fuel - 1, by omega⟩
      have hne : (Cursor.ofOffset data pos).rest.isEmpty = false := by
        simp only [Cursor.ofOffset, List.drop_eq_getElem_cons hlt, List.isEmpty_cons]
      have hstep := agrees_instruction t ht hlen hlt
      simp only [stream, if_pos hlt, Code.stream, hne, Bool.false_eq_true, if_false]
      cases hr : readInstruction t (Cursor.ofOffset data pos) with
      | error e =>
        rw [mapped, hr] at hstep
        rw [show instruction t data pos = fail e from hstep]
        rfl
      | ok found =>
        obtain ⟨i, c⟩ := found
        rw [mapped, hr] at hstep
        obtain ⟨after, rfl, hafter, hend, hi⟩ := hstep
        have hmark : (withImport t i).isCodeEnd = i.isCodeEnd := by
          simp only [RawInstruction.isCodeEnd, opcode_withImport]
        simp only [hi, checked_ok_bind, hmark]
        cases i.isCodeEnd with
        | true => rfl
        | false =>
          simp only [Bool.false_eq_true, if_false, linkedRun_cons, returned_bind]
          rw [ih (show data.length - after < steps by omega)
            (show data.length - after ≤ fuel by omega)]
          rfl
    · have hrest : Cursor.ofOffset data pos = ⟨pos, []⟩ := by
        simp only [Cursor.ofOffset, List.drop_eq_nil_of_le (Nat.le_of_not_lt hlt)]
      rw [stream, if_neg hlt, hrest]
      cases fuel <;> rfl

theorem instructions_eq (t : Tables) (ht : t.checkCounts = true) {data : Bytes}
    (hlen : data.length < 2 ^ 63) (pos : Nat) :
    instructions t data pos = returned (Code.instructions t data pos).value := by
  rw [value_instructions]
  exact stream_eq t ht hlen (by omega) (by simp only [Cursor.ofOffset, List.length_drop]; omega)

end BeamScope.Positional
