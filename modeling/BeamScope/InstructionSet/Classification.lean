import BeamScope.InstructionSet.Definition
import BeamScope.Opcode.Basic

/-!
# Classifying instructions

A classification says for each instruction what kind of work it does, which properties it has and
which operand is an import index. `table` checks it against the definitions and, if the two fit,
lays the instructions out by number with a gap for each number that none has.
-/

namespace BeamScope.InstructionSet

/-- A classification, with names as they were written. -/
structure Classification where
  /-- Category name and the instructions in it. -/
  categories : List (String × List String)
  /-- Call property name and the instructions that have it. -/
  callShapes : List (String × List String)
  lineMarkers : List String
  /-- Instruction and the position of its import index. -/
  importOperands : List (String × Nat)

inductive ClassFault where
  | unknownCategory (key : String)
  | unknownShape (key : String)
  | unknownOpcode (part name : String)
  | twoCategories (name : String) (first second : Category)
  | unclassified (names : List String)
  | importPosition (position : Nat) (name : String) (arity : Nat)
  deriving Repr, DecidableEq

/-- A category as the name of a constructor. -/
def categoryConstructor : Category → String
  | .call => "Call"
  | .stack => "Stack"
  | .data => "Data"
  | .control => "Control"
  | .ret => "Return"
  | .exception => "Exception"
  | .error => "Error"
  | .message => "Message"
  | .binary => "Binary"
  | .float => "Float"
  | .metadata => "Meta"
  | .unknown => "Unknown"

def ClassFault.message : ClassFault → String
  | unknownCategory key => s!"unknown category `{key}`"
  | unknownShape key => s!"unknown call shape `{key}`"
  | unknownOpcode part name => s!"`{part}` names unknown opcode `{name}`"
  | twoCategories name first second =>
    s!"`{name}` listed under both " ++ categoryConstructor first ++ " and " ++
      categoryConstructor second
  | unclassified names => "opcodes without a category: " ++ ", ".intercalate names
  | importPosition position name arity =>
    s!"import operand {position} out of range for {name}/{arity}"

def byKey (entries : List (String × α)) : List (String × α) :=
  entries.mergeSort fun a b => a.1 ≤ b.1

/-- The category that a key names; nothing is put under `unknown` by name. -/
def categoryOfKey? (key : String) : Option Category :=
  (Category.ofName? key).filter (· ≠ .unknown)

def shapeOfKey? (key : String) : Option Flag :=
  [.localCall, .externalCall, .bifCall, .dynamicCall, .tailCall].find? fun f => f.name == key

def checkKnown (ds : Definitions) (part name : String) : Except ClassFault Unit :=
  if ds.defs.any fun d => d.name == name then .ok () else .error (.unknownOpcode part name)

def assignCategory (ds : Definitions) (key : String) (c : Category) :
    List (String × Category) → List String → Except ClassFault (List (String × Category))
  | acc, [] => .ok acc
  | acc, name :: names => do
    checkKnown ds key name
    match acc.lookup name with
    | some first => .error (.twoCategories name first c)
    | none => assignCategory ds key c (acc ++ [(name, c)]) names

/-- The category of each instruction that has one. -/
def assignCategories (ds : Definitions) :
    List (String × Category) → List (String × List String) →
      Except ClassFault (List (String × Category))
  | acc, [] => .ok acc
  | acc, (key, names) :: rest => do
    let some c := categoryOfKey? key | .error (.unknownCategory key)
    assignCategories ds (← assignCategory ds key c acc names) rest

/-- The properties of instructions, one entry for each time one is given. -/
def assignShapes (ds : Definitions) :
    List (String × List String) → Except ClassFault (List (String × Flag))
  | [] => .ok []
  | (key, names) :: rest => do
    let some f := shapeOfKey? key | .error (.unknownShape key)
    names.forM (checkKnown ds key)
    return names.map (fun name => (name, f)) ++ (← assignShapes ds rest)

structure Slot where
  definition : Definition
  category : Category
  /-- In the order in which they were given; one may repeat. -/
  flags : List Flag
  importOperand : Option Nat
  deriving Repr, DecidableEq

/-- The instruction `d` with what the classification says of it. -/
def slot (cats : List (String × Category)) (shapes : List (String × Flag))
    (imports : List (String × Nat)) (d : Definition) : Except ClassFault Slot := do
  let flags := (if d.deprecated then [.deprecated] else []) ++
    shapes.filterMap fun p => if p.1 == d.name then some p.2 else none
  let position := imports.lookup d.name
  match position with
  | some n => if n < d.arity then pure () else .error (.importPosition n d.name d.arity)
  | none => pure ()
  return ⟨d, (cats.lookup d.name).getD .unknown, flags, position⟩

/-- The greatest number defined, 0 if there is none. -/
def Definitions.maxId (ds : Definitions) : Nat := ds.defs.foldl (fun n d => max n d.id) 0

/-- The instructions by number, from 0 to the greatest. -/
def table (ds : Definitions) (cl : Classification) : Except ClassFault (List (Option Slot)) := do
  let cats ← assignCategories ds [] (byKey cl.categories)
  let shapes ← assignShapes ds (byKey cl.callShapes)
  cl.lineMarkers.forM (checkKnown ds "line_marker")
  let shapes := shapes ++ cl.lineMarkers.map fun name => (name, .lineMarker)
  let imports := byKey cl.importOperands
  imports.forM fun p => checkKnown ds "import_operand" p.1
  let missing := ds.defs.filter fun d => !d.deprecated && (cats.lookup d.name).isNone
  if !missing.isEmpty then .error (.unclassified (missing.map Definition.name))
  (List.range (ds.maxId + 1)).mapM fun id =>
    match ds.defs.find? fun d => d.id == id with
    | none => return none
    | some d => return some (← slot cats shapes imports d)

end BeamScope.InstructionSet
