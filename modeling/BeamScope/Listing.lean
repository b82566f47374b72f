import BeamScope.Analysis
import BeamScope.Decimal.Fixed

/-!
# Listings

The text of a module: each function under its signature, each group under its source line, and the
instructions of the group indented below. Statistics give the instructions of each category.
-/

namespace BeamScope.Listing

def ended (lines : List String) : String := String.join (lines.map (· ++ "\n"))

/-- Text at the right end of a column. -/
def right (width : Nat) (s : String) : String := String.ofList (Text.padLeft ' ' width s.toList)

/-- Text at the left end of a column. -/
def left (width : Nat) (s : String) : String := String.ofList (Text.padRight ' ' width s.toList)

def groupHead (g : SourceGroup) : List String :=
  match g.line with
  | none => []
  | some line =>
    match g.mode, g.source with
    | .inline, some text => ["  " ++ right 5 (toString line) ++ "| " ++ text]
    | .distant, some text =>
      [s!"  # from line {line}: " ++ String.ofList (Text.trim text.toList)]
    | _, _ => [s!"  # line {line}"]

/-- A group: the line above it and its instructions. -/
def groupLines (g : SourceGroup) : List String :=
  groupHead g ++ g.instructions.map fun i => "        " ++ i.text

def function (f : FunctionListing) : String :=
  ended (s!"{f.signature} (entry f({f.entry}))" :: f.groups.flatMap groupLines)

/-- The lines above the functions of a module. -/
def moduleHead (a : ModuleAnalysis) : List String :=
  [s!";; module {a.module}"] ++
    (if a.exports.isEmpty then [] else [";; exports " ++ ", ".intercalate a.exports]) ++
    [s!";; {a.functions.length} functions, {a.instructionCount} instructions"]

def module (a : ModuleAnalysis) : String :=
  ended (moduleHead a) ++ String.join (a.functions.map fun f => "\n" ++ function f)

/-- The share of a category in hundredths of the whole, to one place. -/
def percent (f : Function) (c : Category) : String :=
  Decimal.fixed 1 (Binary64.mulNat (f.categoryShare c) 100)

def stats (f : FunctionListing) : String :=
  ended (s!"{f.signature}:" :: f.categories.map fun (c, n) =>
    "  " ++ left 10 c.name ++ right 6 (toString n) ++ "  " ++ right 5 (percent f.function c) ++ "%")

end BeamScope.Listing
