import BeamScope.InstructionSet.Number
import BeamScope.Text.Blank
import BeamScope.Text.Lines

/-!
# Instruction definitions

A definition file has one instruction a line, `ID: name/arity`, a minus sign before the name of one
that is withdrawn. Lines that begin with `##` describe the next definition: `@spec` names its
operands, `@doc` and the lines after it are its documentation. Other lines that begin with `#` are
comments. What was said of a definition never reaches the one after it.
-/

namespace BeamScope.InstructionSet

open Text

structure Definition where
  id : Nat
  name : String
  arity : Nat
  deprecated : Bool
  doc : Option String
  operandNames : List String
  deriving Repr, DecidableEq

structure Definitions where
  formatNumber : Nat
  defs : List Definition
  deriving Repr, DecidableEq

inductive LineFault where
  | badFormatNumber (reason : NumberFault)
  | noColon
  | badId (reason : NumberFault)
  | noSlash
  | badArity (reason : NumberFault)
  | reserved
  | duplicate (name : String) (id : Nat)
  deriving Repr, DecidableEq

def LineFault.message : LineFault → String
  | badFormatNumber reason => "bad format number: " ++ reason.message
  | noColon => "expected `ID: name/arity`"
  | badId reason => "bad opcode id: " ++ reason.message
  | noSlash => "expected `name/arity`"
  | badArity reason => "bad arity: " ++ reason.message
  | reserved => "opcode 0 is reserved"
  | duplicate name id => s!"duplicate definition of {name} ({id})"

/-- What was said about the next definition so far. -/
structure Pending where
  docLines : List (List Char)
  operandNames : List String
  /-- Whether the line before belongs to the documentation. -/
  inDoc : Bool

def Pending.none : Pending := ⟨[], [], false⟩

/-- Lines joined, without blanks at the end; `none` if there is no line. -/
def docText (docLines : List (List Char)) : Option String :=
  if docLines.isEmpty then .none
  else some (String.ofList (trimEnd (join ['\n'] docLines)))

def Pending.annotate (p : Pending) (text : List Char) : Pending :=
  match after? "@spec".toList text with
  | some spec => { p with operandNames := ((words spec).drop 1).map String.ofList, inDoc := false }
  | .none =>
    match after? "@doc".toList text with
    | some doc => { p with docLines := p.docLines ++ [trim doc], inDoc := true }
    | .none => if p.inDoc then { p with docLines := p.docLines ++ [text] } else p

/-- The number, name and arity on a definition line. -/
def readDefinition (p : Pending) (line : List Char) : Except LineFault Definition := do
  let some (id, rest) := splitOnce? ':' line | .error .noColon
  let id ← (readNumber 256 (trim id)).mapError .badId
  let some (name, arity) := splitOnce? '/' (trim rest) | .error .noSlash
  let arity ← (readNumber 256 (trim arity)).mapError .badArity
  let (deprecated, name) :=
    match name with
    | '-' :: name => (true, name)
    | name => (false, name)
  return ⟨id, String.ofList name, arity, deprecated, docText p.docLines, p.operandNames⟩

/-- Add a definition, unless its number is reserved or its number or name is taken. -/
def Definitions.add (ds : Definitions) (d : Definition) : Except LineFault Definitions :=
  if d.id = 0 then .error .reserved
  else if ds.defs.any fun o => o.id == d.id || o.name == d.name then
    .error (.duplicate d.name d.id)
  else .ok { ds with defs := ds.defs ++ [d] }

def step (ds : Definitions) (p : Pending) (line : List Char) :
    Except LineFault (Definitions × Pending) :=
  if line.isEmpty then .ok (ds, p)
  else
    match after? "BEAM_FORMAT_NUMBER=".toList line with
    | some n => do
      let n ← (readNumber (2 ^ 32) (trim n)).mapError .badFormatNumber
      return ({ ds with formatNumber := n }, p)
    | .none =>
      match after? ['#', '#'] line with
      | some text => .ok (ds, p.annotate (trim text))
      | .none =>
        if line.head? = some '#' then .ok (ds, p)
        else do
          let d ← readDefinition p line
          return (← ds.add d, Pending.none)

/-- Lines from number `lineNumber` on; a fault names its line. -/
def readLines (lineNumber : Nat) (ds : Definitions) (p : Pending) :
    List (List Char) → Except (Nat × LineFault) Definitions
  | [] => .ok ds
  | line :: rest =>
    match step ds p (trim line) with
    | .error e => .error (lineNumber, e)
    | .ok (ds, p) => readLines (lineNumber + 1) ds p rest

def parse (source : String) : Except (Nat × LineFault) Definitions :=
  readLines 1 ⟨0, []⟩ Pending.none (lines source.toList)

end BeamScope.InstructionSet
