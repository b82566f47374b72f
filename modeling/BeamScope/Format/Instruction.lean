import BeamScope.Format.Literal
import BeamScope.Instruction

/-!
# Instructions as text

Each operand becomes a text of its own. Instructions on maps take keys and values in turn, either in
one list or spread over the operands; both are shown as pairs.
-/

namespace BeamScope

/-- What a reader of a listing may choose. -/
structure Options where
  /-- The width to which literals are cut. -/
  literalWidth : Nat
  /-- How many lines past its first line a function may reach before code counts as taken from
  elsewhere; without it, a function reaches to where the next one begins. -/
  nearWindow : Option Nat

structure Instruction where
  category : Category
  mnemonic : String
  operands : List String
  deriving Repr, DecidableEq, Inhabited

def Instruction.text (i : Instruction) : String :=
  if i.operands.isEmpty then i.mnemonic else i.mnemonic ++ " " ++ ", ".intercalate i.operands

namespace Format

/-- A heap need: its parts that are not zero. -/
def alloc (need : AllocList) : String :=
  let parts := [("words", need.words), ("floats", need.floats), ("funs", need.funs)]
  let shown := parts.filter fun p => p.2 ≠ 0
  if shown.isEmpty then "words:0" else ",".intercalate (shown.map fun (key, n) => s!"{key}:{n}")

mutual

def operand (width : Nat) : Operand → String
  | .x n => s!"x({n})"
  | .y n => s!"y({n})"
  | .floatReg n => s!"fr({n})"
  | .label n => s!"f({n})"
  | .atom name => atom name
  | .nil => "[]"
  | .integer v => toString v
  | .unsigned n => toString n
  | .float bits => numbers.render bits
  | .literal t => literal t width
  | .literalRef n => s!"lit({n})"
  | .extFunc f => f.text
  | .typed reg _ => operand width reg
  | .alloc need => alloc need
  | .list items => "[" ++ ", ".intercalate (operands width items) ++ "]"
  | .tuple items => "\x7b" ++ ", ".intercalate (operands width items) ++ "\x7d"
  | .other text => text

def operands (width : Nat) : List Operand → List String
  | [] => []
  | o :: os => operand width o :: operands width os

end

/-- An instruction that takes pairs behind some fixed operands. -/
structure PairShape where
  fixed : Nat
  /-- Stands between the two parts of a pair. -/
  separator : String

def pairShape? (mnemonic : String) : Option PairShape :=
  if mnemonic == "get_map_elements" then some ⟨2, ": "⟩
  else if mnemonic == "put_map_assoc" || mnemonic == "put_map_exact" then some ⟨4, " => "⟩
  else none

/-- Operands two by two; one that is left over stands alone. -/
def pairs (width : Nat) (separator : String) : List Operand → List String
  | key :: value :: rest =>
    (operand width key ++ separator ++ operand width value) :: pairs width separator rest
  | [key] => [operand width key]
  | [] => []

/-- The pairs among the operands behind the fixed ones. -/
def spread : List Operand → List Operand
  | [.list items] => items
  | rest => rest

/-- The operands of an instruction that takes pairs. -/
def pairedOperands (width : Nat) (shape : PairShape) (os : List Operand) : List String :=
  if os.length < shape.fixed then operands width os
  else operands width (os.take shape.fixed) ++
    pairs width shape.separator (spread (os.drop shape.fixed))

/-- The operand of a label definition, which is written without a tag. -/
def labelOperand (width : Nat) : Operand → String
  | .unsigned n => s!"f({n})"
  | o => operand width o

/-- The name shown for an opcode; an unknown one is shown by its number. -/
def mnemonic (o : Opcode) : String :=
  if o.isPlaceholder then s!"opcode_{o.id.toNat}" else o.mnemonic

def instruction (width : Nat) (i : RawInstruction) : Instruction :=
  let name := mnemonic i.info
  let texts :=
    match pairShape? name with
    | some shape => pairedOperands width shape i.operands
    | none =>
      if name == "label" then i.operands.map (labelOperand width) else operands width i.operands
  ⟨i.info.category, name, texts⟩

end Format

end BeamScope
