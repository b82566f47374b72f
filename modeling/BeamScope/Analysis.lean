import BeamScope.CallGraph.Extract
import BeamScope.Source.Groups
import BeamScope.Source.Layout

/-!
# Analysis of a module

Everything that is shown of a module: its functions with their instructions by source line, its
exports and its call graph. Lines and source text only decide how instructions are grouped; a
module without them is analyzed all the same.
-/

namespace BeamScope

structure FunctionListing where
  signature : String
  entry : Nat
  /-- The line of the first line marker. -/
  anchor : Option Nat
  categories : List (Category × Nat)
  groups : List SourceGroup
  function : Function

structure ModuleAnalysis where
  module : String
  exports : List String
  functions : List FunctionListing
  callGraph : CallGraph

namespace ModuleAnalysis

def function? (a : ModuleAnalysis) (signature : String) : Option FunctionListing :=
  a.functions.find? fun f => f.signature == signature

def instructionCount (a : ModuleAnalysis) : Nat :=
  a.functions.foldl (fun n f => n + f.function.instructions.length) 0

/-- What is said of a function that is not there. -/
def missingFunction (signature : String) : String := s!"Function {signature} not found"

end ModuleAnalysis

namespace Analysis

def anchor? (lines : LineTable) (f : RawFunction) : Option Nat :=
  (f.code.findSome? RawInstruction.lineIndex?).map lines.resolve

/-- A function with its groups as its own line markers give them. -/
def listing (width : Nat) (lines : LineTable) (source : Option SourceText) (f : RawFunction) :
    FunctionListing :=
  let function := disassemble width lines f
  { signature := function.signature
    entry := function.entry
    anchor := anchor? lines f
    categories := function.categoryCounts
    groups := SourceGroup.correlate function lines source
    function }

/-- Where a function that starts at `anchor` ends: past the window, or else at the first later
anchor that is greater. -/
def rangeEnd (window : Option Nat) (anchor : Nat) (later : List (Option Nat)) : Option Nat :=
  match window with
  | some w => some (SourceText.saturatingAdd (SourceText.saturatingAdd anchor w) 1)
  | none => later.findSome? fun a => a.filter fun a => anchor < a

/-- Groups outside their function marked, function by function. -/
def markAll (window : Option Nat) : List FunctionListing → List FunctionListing
  | [] => []
  | f :: rest =>
    let marked :=
      match f.anchor with
      | none => f
      | some a =>
        let stop := rangeEnd window a (rest.map FunctionListing.anchor)
        { f with groups := f.groups.map (SourceGroup.markDistant a stop) }
    marked :: markAll window rest

def ofFunctions (opts : Options) (module : String) (exports : List String)
    (fs : List RawFunction) (lines : LineTable) (source : Option SourceText) :
    Noted ModuleAnalysis :=
  let graph := CallGraph.ofFunctions module fs
  let listings := fs.map (listing opts.literalWidth lines source)
  ⟨⟨module, exports, markAll opts.nearWindow listings, graph⟩,
    graph.notes module ++ listings.flatMap fun l => l.function.notes⟩

/-- The exports of a module as signatures; a table that cannot be read is noted. -/
def exportsOf (f : Container) (module : String) (atoms : AtomTable) : Noted (List String) :=
  match f.exports with
  | .ok table => pure ((table.names atoms).map fun (name, arity) => s!"{name}/{arity}")
  | .error e => ⟨[], [.warn (s!"{module}: cannot read export table: " ++ e.message)]⟩

def ofContainer (opts : Options) (f : Container) (source : Option SourceText) :
    Noted (Except Fault ModuleAnalysis) :=
  match f.moduleName with
  | .error e => ⟨.error e, []⟩
  | .ok module =>
    match f.atoms with
    | .error e => ⟨.error e, []⟩
    | .ok atoms => do
      let exports ← exportsOf f module atoms
      match ← f.functions with
      | .error e => return .error e
      | .ok fs =>
        let lines ← f.lineTable
        return .ok (← ofFunctions opts module exports fs lines source)

end Analysis

end BeamScope
