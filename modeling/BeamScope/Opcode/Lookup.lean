import BeamScope.Opcode.Table

/-!
# Looking up opcodes

By number and by name. Looking up never fails where a listing has to go on: a number that no
instruction has is described by a placeholder.
-/

namespace BeamScope.Opcode

def lookup (id : UInt8) : Option Opcode := table.find? fun o => o.id == id

def lookupName (name : String) : Option Opcode := table.find? fun o => o.mnemonic == name

/-- The instruction with a number, or a placeholder. -/
def describe (id : UInt8) : Opcode := (lookup id).getD (placeholder id)

def maxId : Nat := table.foldl (fun n o => max n o.id.toNat) 0

def label : UInt8 := 1

/-- Head of a function: module, name, arity. -/
def funcInfo : UInt8 := 2

def codeEnd : UInt8 := 3

/-- The position of an import index is always that of an operand. -/
theorem importOperand_lt_arity :
    ∀ o ∈ table, o.importOperand.all (· < o.arity) = true := by decide +kernel

example : (lookupName "label").map Opcode.id = some label := by decide +kernel

example : (lookupName "func_info").map Opcode.id = some funcInfo := by decide +kernel

example : (lookupName "int_code_end").map Opcode.id = some codeEnd := by decide +kernel

end BeamScope.Opcode
