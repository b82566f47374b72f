import BeamScope.CallGraph.Basic
import BeamScope.Instruction
import BeamScope.Note

/-!
# The call graph of a module

Every function of the module is in the graph. A call to another module, or to a built-in function,
leads to the function that the instruction names. A call to a label leads to the function that has
it as its entry, if one does. A call that is known only when the program runs leads nowhere.
-/

namespace BeamScope.CallGraph

/-- Entry labels and the functions behind them. -/
abbrev Entries := List (Nat × String)

/-- The function with an entry label; of several the last. -/
def Entries.get? (es : Entries) (label : Nat) : Option String :=
  (es.reverse.find? fun e => e.1 == label).map Prod.snd

/-- The function that an instruction names: at the position of its import, or else the first. -/
def namedFunction? (i : RawInstruction) : Option ExtFunc :=
  ((i.info.importOperand.bind fun n => i.operands[n]?).bind Operand.asExtFunc?).or
    (i.operands.findSome? Operand.asExtFunc?)

/-- The first label among the operands. -/
def targetLabel? (i : RawInstruction) : Option Nat :=
  i.operands.findSome? fun o =>
    match o with
    | .label n => some n
    | _ => none

def callTarget? (es : Entries) (i : RawInstruction) : Option String :=
  let info := i.info
  if info.has .dynamicCall then none
  else if info.has .externalCall || info.has .bifCall then
    (namedFunction? i).map fun f => nodeId f.module f.function f.arity
  else if info.has .localCall then (targetLabel? i).bind es.get?
  else none

/-- The name of a function of the module. -/
def idOf (module : String) (f : RawFunction) : String := nodeId module f.name f.arity

def addCalls (module : String) (es : Entries) (g : CallGraph) (f : RawFunction) : CallGraph :=
  (f.code.filterMap (callTarget? es)).foldl (fun g callee => g.addEdge (idOf module f) callee) g

/-- The call graph of the functions of a module. -/
def ofFunctions (module : String) (fs : List RawFunction) : CallGraph :=
  let es : Entries := fs.map fun f => (f.entry, idOf module f)
  let nodes := fs.foldl (fun g f => g.addNode (idOf module f)) empty
  fs.foldl (addCalls module es) nodes

/-- What is noted on the call graph of a module. -/
def notes (module : String) (g : CallGraph) : List Note :=
  [.debug s!"call graph of {module}: {g.nodes.length} nodes, {g.edges.length} edges"]

end BeamScope.CallGraph
