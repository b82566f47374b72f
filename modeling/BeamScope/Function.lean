import BeamScope.Ascending
import BeamScope.Binary64
import BeamScope.Format.Instruction
import BeamScope.Note
import BeamScope.Table.Lines

/-!
# Disassembled functions

A function with each instruction as it is shown, and the lines of its line markers.
-/

namespace BeamScope

structure Function where
  name : String
  arity : Nat
  entry : Nat
  raw : List RawInstruction
  /-- As shown, one for each of `raw`. -/
  instructions : List Instruction
  /-- The line of each line table index in the function, ascending by index. -/
  lines : List (Nat × Nat)

namespace Function

def signature (f : Function) : String := s!"{f.name}/{f.arity}"

def count (f : Function) (c : Category) : Nat := f.instructions.countP fun i => i.category == c

/-- How many instructions are in each category that has some. -/
def categoryCounts (f : Function) : List (Category × Nat) :=
  (Category.all.map fun c => (c, f.count c)).filter fun p => p.2 ≠ 0

/-- The share of a category, as floating-point bits; zero in an empty function. -/
def categoryShare (f : Function) (c : Category) : UInt64 :=
  if f.instructions.isEmpty then Binary64.ofRatio false 0 1
  else Binary64.ofRatio false (f.count c) f.instructions.length

end Function

/-- A function with its instructions formatted and its line markers resolved. -/
def disassemble (width : Nat) (lines : LineTable) (f : RawFunction) : Function :=
  { name := f.name
    arity := f.arity
    entry := f.entry
    raw := f.code
    instructions := f.code.map (Format.instruction width)
    lines := Ascending.ofPairs
      ((f.code.filterMap RawInstruction.lineIndex?).map fun i => (i, lines.resolve i)) }

def Function.notes (f : Function) : List Note :=
  [.debug (s!"disassembled {f.name}/{f.arity}: {f.raw.length} instructions, " ++
    s!"{f.lines.length} line markers")]

end BeamScope
