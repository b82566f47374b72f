import BeamScope.Text.Digits

/-!
# Unsigned numbers in a definition file

Decimal numbers with a bound. Digits are read from the left, and the first thing that is wrong
decides what is reported.
-/

namespace BeamScope.InstructionSet

inductive NumberFault where
  | empty
  | badDigit
  | tooLarge
  deriving Repr, DecidableEq

def NumberFault.message : NumberFault → String
  | empty => "cannot parse integer from empty string"
  | badDigit => "invalid digit found in string"
  | tooLarge => "number too large to fit in target type"

/-- Digits from the left onto `acc`, which must stay below `bound`. -/
def readDigits (bound : Nat) : Nat → List Char → Except NumberFault Nat
  | acc, [] => .ok acc
  | acc, c :: cs =>
    match Text.digit? 10 c with
    | none => .error .badDigit
    | some d =>
      if acc * 10 + d < bound then readDigits bound (acc * 10 + d) cs else .error .tooLarge

/-- A number below `bound`; a plus sign may stand in front of it. -/
def readNumber (bound : Nat) (cs : List Char) : Except NumberFault Nat :=
  match cs with
  | [] => .error .empty
  | ['+'] => .error .badDigit
  | '+' :: cs => readDigits bound 0 cs
  | cs => readDigits bound 0 cs

end BeamScope.InstructionSet
