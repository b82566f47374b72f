import BeamScope.Opcode.Lookup
import BeamScope.Operand

/-!
# Instructions and functions

An instruction as it was read: an opcode number and operands, whose count need not fit the opcode.
A function is a stretch of instructions with the name, arity and entry label found in it.
-/

namespace BeamScope

/-- An opcode number with its operands. -/
structure RawInstruction where
  opcode : UInt8
  operands : List Operand
  deriving Repr, Inhabited

namespace RawInstruction

def info (i : RawInstruction) : Opcode := Opcode.describe i.opcode

/-- The line table index that a line marker carries. -/
def lineIndex? (i : RawInstruction) : Option Nat :=
  if i.info.isLineMarker then i.operands.head?.bind Operand.asUInt32? else none

def isLabel (i : RawInstruction) : Bool := i.opcode == Opcode.label

/-- Whether this is the head of a function. -/
def isFuncInfo (i : RawInstruction) : Bool := i.opcode == Opcode.funcInfo

def isCodeEnd (i : RawInstruction) : Bool := i.opcode == Opcode.codeEnd

/-- Whether this may stand before the head of a function and belong to it. -/
def isLead (i : RawInstruction) : Bool := i.isLabel || i.info.isLineMarker

end RawInstruction

/-- A function before it is formatted. -/
structure RawFunction where
  name : String
  arity : Nat
  /-- The label behind the head. -/
  entry : Nat
  code : List RawInstruction
  deriving Repr, Inhabited

end BeamScope
