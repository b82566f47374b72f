/-!
# Opcodes

What is known of one instruction: its number and name, how many operands it takes, what kind of
work it does, and the properties that call graphs and listings ask for.
-/

namespace BeamScope

/-- The kind of work that an instruction does. -/
inductive Category where
  | call
  | stack
  | data
  | control
  | ret
  | exception
  | error
  | message
  | binary
  | float
  | metadata
  /-- Not classified: only withdrawn and unknown instructions. -/
  | unknown
  deriving Repr, DecidableEq, Inhabited

namespace Category

/-- Every category, in the order in which statistics list them. -/
def all : List Category :=
  [call, stack, data, control, ret, exception, error, message, binary, float, metadata, unknown]

def name : Category → String
  | call => "call"
  | stack => "stack"
  | data => "data"
  | control => "control"
  | ret => "return"
  | exception => "exception"
  | error => "error"
  | message => "message"
  | binary => "binary"
  | float => "float"
  | metadata => "meta"
  | unknown => "unknown"

def ofName? (s : String) : Option Category := all.find? fun c => c.name == s

end Category

inductive Flag where
  /-- No longer emitted by compilers. -/
  | deprecated
  /-- Calls a label of the same module. -/
  | localCall
  /-- Calls an imported function. -/
  | externalCall
  /-- Calls a built-in function through the import table. -/
  | bifCall
  /-- Calls a function that is known only when the program runs. -/
  | dynamicCall
  /-- Does not return here. -/
  | tailCall
  /-- Carries an index into the line table. -/
  | lineMarker
  deriving Repr, DecidableEq, Inhabited

namespace Flag

def all : List Flag :=
  [deprecated, localCall, externalCall, bifCall, dynamicCall, tailCall, lineMarker]

def name : Flag → String
  | deprecated => "deprecated"
  | localCall => "local_call"
  | externalCall => "external_call"
  | bifCall => "bif_call"
  | dynamicCall => "dynamic_call"
  | tailCall => "tail_call"
  | lineMarker => "line_marker"

end Flag

structure Opcode where
  id : UInt8
  mnemonic : String
  arity : Nat
  category : Category
  flags : List Flag
  /-- The position of the operand that is an index into the import table. -/
  importOperand : Option Nat
  doc : Option String
  operandNames : List String
  deriving Repr, DecidableEq

namespace Opcode

/-- Stands in for a number that no instruction has. -/
def placeholder (id : UInt8) : Opcode := ⟨id, "unknown", 0, .unknown, [], none, none, []⟩

def has (o : Opcode) (f : Flag) : Bool := o.flags.contains f

def isDeprecated (o : Opcode) : Bool := o.has .deprecated

def isPlaceholder (o : Opcode) : Bool := o.mnemonic == "unknown" && o.category == .unknown

/-- Whether the instruction calls something, known in advance or not. -/
def isCall (o : Opcode) : Bool :=
  o.has .localCall || o.has .externalCall || o.has .bifCall || o.has .dynamicCall

def isLineMarker (o : Opcode) : Bool := o.has .lineMarker

end Opcode

end BeamScope
