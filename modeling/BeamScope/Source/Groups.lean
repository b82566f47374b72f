import BeamScope.Function
import BeamScope.Source.Text
import BeamScope.Text.Blank

/-!
# Instructions by source line

A function's instructions in groups that come from one line each. A line marker ends a group and is
in none. A group is shown with the text of its line, or with a reference if the line lies outside
the function, or without text if there is none.
-/

namespace BeamScope

inductive RenderMode where
  /-- With the text of its line. -/
  | inline
  /-- With a reference to a line elsewhere. -/
  | distant
  /-- Without text. -/
  | unavailable
  deriving Repr, DecidableEq, Inhabited

def RenderMode.name : RenderMode → String
  | inline => "inline"
  | distant => "distant"
  | unavailable => "unavailable"

def RenderMode.ofName? (s : String) : Option RenderMode :=
  [inline, distant, unavailable].find? fun m => m.name == s

/-- Instructions that come from one line. -/
structure SourceGroup where
  /-- Without a line before the first line marker. -/
  line : Option Nat
  source : Option String
  instructions : List Instruction
  mode : RenderMode
  deriving Repr, DecidableEq, Inhabited

namespace SourceGroup

/-- Put a group behind others; it joins the last if that has the same line, and takes its text and
mode. -/
def push : List SourceGroup → SourceGroup → List SourceGroup
  | [], g => [g]
  | [last], g =>
    if last.line = g.line then [{ last with instructions := last.instructions ++ g.instructions }]
    else [last, g]
  | a :: b :: rest, g => a :: push (b :: rest) g

/-- Groups behind others, joined where they have the same line. -/
def merge (left right : List SourceGroup) : List SourceGroup := right.foldl push left

/-- The text of a line, unless it is blank. -/
def lineText? (source : Option SourceText) (line : Option Nat) : Option String := do
  let text ← source
  let n ← line
  (text.get? n).filter fun s => !(Text.trim s.toList).isEmpty

def ofRun (source : Option SourceText) (line : Option Nat) (run : List Instruction) : SourceGroup :=
  match lineText? source line with
  | some s => ⟨line, some s, run, .inline⟩
  | none => ⟨line, none, run, .unavailable⟩

/-- The runs between line markers, each with the line of the marker before it. -/
def runs (lines : LineTable) :
    Option Nat → List (RawInstruction × Instruction) → List (Option Nat × List Instruction)
  | current, [] => [(current, [])]
  | current, (raw, i) :: rest =>
    match raw.lineIndex? with
    | some index => (current, []) :: runs lines (some (lines.resolve index)) rest
    | none =>
      match runs lines current rest with
      | [] => [(current, [i])]
      | (line, run) :: more => (line, i :: run) :: more

/-- The groups of a function. Empty runs are dropped, and neighbours with one line joined. -/
def correlate (f : Function) (lines : LineTable) (source : Option SourceText) :
    List SourceGroup :=
  merge [] (((runs lines none (f.raw.zip f.instructions)).filter fun p => !p.2.isEmpty).map
    fun (line, run) => ofRun source line run)

/-- Whether `line` is at least `start` and, if there is an end, before it. -/
def isNear (start : Nat) (stop : Option Nat) (line : Nat) : Bool :=
  start ≤ line && stop.all fun stop => line < stop

/-- A group that is shown with its text but lies outside the range becomes a reference. -/
def markDistant (start : Nat) (stop : Option Nat) (g : SourceGroup) : SourceGroup :=
  match g.line with
  | none => g
  | some line =>
    if g.mode = .inline ∧ !isNear start stop line then { g with mode := .distant } else g

end SourceGroup

end BeamScope
