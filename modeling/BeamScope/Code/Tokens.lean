import BeamScope.Instruction
import BeamScope.Note
import BeamScope.Table.Functions
import BeamScope.Table.Literals

/-!
# The instruction stream

A code chunk is a header and a stream of opcode bytes, each followed by its operands as compact
numbers. An operand under the extended tag is one of five kinds that go on behind it: a list, a
floating-point register, an allocation list, a literal or a typed register.

Reading has two steps that do not depend on each other. `readInstruction` needs the atom and
literal tables only to name what it read; `resolveImport` then replaces import numbers by names.
-/

namespace BeamScope

/-- The numbers in front of the instruction stream. -/
structure CodeHeader where
  instructionSet : Nat
  maxOpcode : Nat
  labelCount : Nat
  functionCount : Nat
  /-- Where the stream starts. -/
  codeOffset : Nat
  deriving Repr, DecidableEq

/-- A code header; its own size field says where the stream starts. -/
def CodeHeader.parse (chunk : Bytes) : Except Fault CodeHeader := do
  let (size, c) ← (Cursor.ofOffset chunk 0).word 4
  if size < 16 ∨ chunk.length < 4 + size then .error (.truncated chunk.length)
  else
    let (instructionSet, c) ← c.word 4
    let (maxOpcode, c) ← c.word 4
    let (labelCount, c) ← c.word 4
    let (functionCount, _) ← c.word 4
    return ⟨instructionSet, maxOpcode, labelCount, functionCount, 4 + size⟩

namespace Code

/-- What operands refer to, and how strictly they are read. -/
structure Tables where
  atoms : AtomTable
  imports : ImportTable
  literals : Option LiteralTable
  /-- Whether the length of a list is checked against the bytes that are left before any element
  is read. -/
  checkCounts : Bool

/-- A compact number that has to be unsigned. -/
def readUnsigned (c : Cursor) : Except Fault (Nat × Cursor) := do
  let (item, after) ← Compact.next c
  if item.tag = .unsigned then return (item.value.toNat, after)
  else .error (.badTag (c.rest.headD 0) c.pos)

/-- A number that has to fit in 32 bits, in an operand that starts at `offset`. -/
def small (offset n : Nat) : Except Fault Nat :=
  if isUInt32 n then .ok n else .error (.overflow offset)

/-- An unsigned compact number of 32 bits. -/
def readSmall (offset : Nat) (c : Cursor) : Except Fault (Nat × Cursor) := do
  let (n, c) ← readUnsigned c
  return (← small offset n, c)

/-- The entries of an allocation list: a kind and a number each; a later one replaces an earlier
one of its kind. -/
def readAllocs (offset : Nat) : Nat → AllocList → Cursor → Except Fault (AllocList × Cursor)
  | 0, need, c => .ok (need, c)
  | count + 1, need, c => do
    let (kind, c) ← readUnsigned c
    let (value, c) ← readSmall offset c
    match kind with
    | 0 => readAllocs offset count { need with words := value } c
    | 1 => readAllocs offset count { need with floats := value } c
    | 2 => readAllocs offset count { need with funs := value } c
    | kind => .error (.unsupportedOperand kind offset)

/-- One operand. Every operand takes at least a byte, so as much fuel as there are bytes is never
used up before the bytes are. -/
def readOperand (t : Tables) : (fuel : Nat) → Cursor → Except Fault (Operand × Cursor)
  | 0, c => .error (.truncated c.pos)
  | fuel + 1, c => do
    let offset := c.pos
    let (item, c) ← Compact.next c
    let n := item.value.toNat
    match item.tag with
    | .unsigned => return (.unsigned n, c)
    | .integer => return (.integer item.value, c)
    | .char => return (.integer item.value, c)
    | .atom =>
      if n = 0 then return (.nil, c)
      else
        match t.atoms.get? n with
        | some name => return (.atom name, c)
        | none => .error (.indexOutOfRange "atom" n)
    | .x => return (.x (← small offset n), c)
    | .y => return (.y (← small offset n), c)
    | .label => return (.label (← small offset n), c)
    | .extended =>
      match n with
      | 1 =>
        let (len, c) ← readUnsigned c
        if t.checkCounts && !Bytes.holds len c.rest then .error (.truncated offset)
        else
          let (items, c) ← Cursor.many (readOperand t fuel) len c
          return (.list items, c)
      | 2 =>
        let (index, c) ← readSmall offset c
        return (.floatReg index, c)
      | 3 =>
        let (count, c) ← readUnsigned c
        let (need, c) ← readAllocs offset count ⟨0, 0, 0⟩ c
        return (.alloc need, c)
      | 4 =>
        let (index, c) ← readSmall offset c
        match t.literals.bind (·.get? index) with
        | some term => return (.literal term, c)
        | none => return (.literalRef index, c)
      | 5 =>
        let (reg, c) ← readOperand t fuel c
        let (typeIndex, c) ← readSmall offset c
        return (.typed reg typeIndex, c)
      | kind => .error (.unsupportedOperand kind offset)

/-- One instruction: an opcode and as many operands as it takes. -/
def readInstruction (t : Tables) (c : Cursor) : Except Fault (RawInstruction × Cursor) := do
  let (opcode, after) ← c.byte
  match Opcode.lookup opcode with
  | none => .error (.unknownOpcode opcode c.pos)
  | some info =>
    let (operands, after) ← Cursor.many (readOperand t after.rest.length) info.arity after
    return (⟨opcode, operands⟩, after)

/-- Instructions with their places, up to and including the end mark or the end of the data. -/
def stream (t : Tables) : (fuel : Nat) → Cursor → Run (Nat × RawInstruction)
  | 0, _ => ⟨[], none⟩
  | fuel + 1, c =>
    if c.rest.isEmpty then ⟨[], none⟩
    else
      match readInstruction t c with
      | .error e => ⟨[], some e⟩
      | .ok (i, after) =>
        if i.isCodeEnd then ⟨[(c.pos, i)], none⟩ else Run.cons (c.pos, i) (stream t fuel after)

/-- The instruction read at `offset` with its import number replaced by the function it means. -/
def resolveImport (t : Tables) (offset : Nat) (i : RawInstruction) : Noted RawInstruction :=
  match i.info.importOperand with
  | none => pure i
  | some position =>
    match i.operands[position]? with
    | some (.unsigned index) =>
      match t.imports.resolve index t.atoms with
      | some f => pure { i with operands := i.operands.set position (.extFunc f) }
      | none => ⟨i, [.warn (s!"unresolved import {index} at offset " ++ Text.hex offset)]⟩
    | _ => pure i

/-- The instructions of `data` from `offset` on. -/
def instructions (t : Tables) (data : Bytes) (offset : Nat) :
    Noted (Except Fault (List RawInstruction)) :=
  let c := Cursor.ofOffset data offset
  let run := stream t c.rest.length c
  let resolved := Noted.traverse (fun (offset, i) => resolveImport t offset i) run.items
  ⟨Run.toExcept ⟨resolved.value, run.fault⟩, resolved.notes⟩

end Code

end BeamScope
