import BeamScope.Term

/-!
# Operands

What an instruction works on: registers, labels, literals, counts and references to functions.
-/

namespace BeamScope

/-- A function of another module, or of this one by its full name. -/
structure ExtFunc where
  module : String
  function : String
  arity : Nat
  deriving Repr, DecidableEq

/-- `module:function/arity`. -/
def ExtFunc.text (f : ExtFunc) : String := s!"{f.module}:{f.function}/{f.arity}"

/-- How much heap an instruction needs: words, floating-point numbers and function objects. -/
structure AllocList where
  words : Nat
  floats : Nat
  funs : Nat
  deriving Repr, DecidableEq

inductive Operand where
  | x (index : Nat)
  | y (index : Nat)
  /-- A floating-point register. -/
  | floatReg (index : Nat)
  | label (number : Nat)
  | atom (name : String)
  /-- The empty list. -/
  | nil
  | integer (value : Int)
  /-- A count, a size or an index. -/
  | unsigned (value : Nat)
  /-- A floating-point number, by its bits. -/
  | float (bits : UInt64)
  | literal (term : Term)
  /-- An index into the literal table that could not be resolved. -/
  | literalRef (index : Nat)
  | extFunc (f : ExtFunc)
  /-- A register with what is known of the type of its value. -/
  | typed (reg : Operand) (typeIndex : Nat)
  | alloc (need : AllocList)
  | list (items : List Operand)
  | tuple (items : List Operand)
  | other (text : String)
  deriving Repr, Inhabited

namespace Operand

def asExtFunc? : Operand → Option ExtFunc
  | extFunc f => some f
  | _ => none

/-- The number of a count, of a non-negative integer or of a label. -/
def asNat? : Operand → Option Nat
  | unsigned n => some n
  | integer v => if 0 ≤ v then some v.toNat else none
  | label n => some n
  | _ => none

/-- The number of an operand if it is one of 32 bits. -/
def asUInt32? (o : Operand) : Option Nat := o.asNat?.filter isUInt32

end Operand

end BeamScope
