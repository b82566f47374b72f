import BeamScope.CallGraph.Dot
import BeamScope.Listing
import BeamScope.Report

/-!
# Commands

What the program does with a module file: a summary of its chunks, a disassembly, or its call
graph. A command is a function from the contents of files to what is printed and the exit status.
-/

namespace BeamScope

/-- What a command prints, and its exit status. -/
structure Outcome where
  exit : Nat
  stdout : String
  stderr : String
  deriving Repr, DecidableEq

/-- A source file that goes with a module. -/
inductive SourceFile where
  | notGiven
  /-- Given, but it could not be opened. -/
  | unreadable
  | contents (bytes : Bytes)

structure Disassembly where
  source : SourceFile
  /-- As YAML instead of a listing. -/
  yaml : Bool
  /-- Only the function with this signature. -/
  function : Option String
  /-- Statistics instead of the listing. -/
  stats : Bool
  options : Options

inductive Command where
  | info
  | disassemble (request : Disassembly)
  | callGraph (yaml : Bool)

/-- The width to which literals are cut unless another is asked for. -/
def defaultLiteralWidth : Nat := 60

namespace Command

/-- A command that failed, after what it wrote before. -/
def failed (before message : String) : Outcome := ⟨1, "", before ++ "Error: " ++ message ++ "\n"⟩

/-- The size of a table, or why it could not be read. -/
def tableLine (label : String) (size : Except Fault Nat) : String :=
  Listing.left 18 (label ++ ":") ++
    match size with
    | .ok n => toString n
    | .error e => "unreadable (" ++ e.message ++ ")"

def codeLines (header : Except Fault CodeHeader) : List String :=
  match header with
  | .ok h =>
    [s!"Instruction set:  {h.instructionSet}",
      s!"Max opcode:       {h.maxOpcode} (known up to {Opcode.maxId})",
      s!"Labels:           {h.labelCount}",
      s!"Functions:        {h.functionCount}"]
  | .error e => ["Code:             unreadable (" ++ e.message ++ ")"]

def lineEntries (t : LineTable) : String :=
  if t.lines.isEmpty then "Line entries:     none"
  else
    let low := t.lines.foldl min (2 ^ 32 - 1)
    let high := t.lines.foldl max 0
    s!"Line entries:     {t.lines.length} (lines {low}..={high})"

def infoLines (f : Container) (module : String) : List String :=
  ["=== BEAM File Info ===",
    s!"Module:           {module}",
    s!"File size:        {f.size} bytes",
    "Chunks:"] ++
  (f.chunks.map fun c =>
    "  " ++ Listing.left 6 c.idText ++ " " ++
      Listing.right 8 (toString c.payload.length) ++ " bytes") ++
  [tableLine "Atoms" (f.atoms.map fun t => t.names.length),
    tableLine "Exports" (f.exports.map fun t => t.entries.length),
    tableLine "Imports" (f.imports.map fun t => t.imports.length),
    tableLine "Locals" (f.locals.map fun t => t.entries.length)] ++
  (if (f.chunk? "LitT").isSome then [s!"Literals:         {f.literals.value.terms.length}"]
    else []) ++
  codeLines ((f.chunk "Code").bind CodeHeader.parse) ++
  [lineEntries f.lineTable.value]

/-- The summary of a module, if it has a name. -/
def summary (f : Container) : Outcome :=
  match f.moduleName with
  | .error e => failed "" e.message
  | .ok module => ⟨0, Listing.ended (infoLines f module), ""⟩

/-- The source text for a disassembly and what is said about it: the given file, or else what the
debug information of the module yields. -/
def sourceFor (f : Container) (file : SourceFile) : Option SourceText × String :=
  let given :=
    match file with
    | .contents bytes => SourceText.ofBytes? bytes
    | _ => none
  match given with
  | some text => (some text, "")
  | none =>
    let warning :=
      match file with
      | .notGiven => ""
      | _ => "Warning: source unavailable, trying debug info\n"
    ((SourceText.ofDebugInfo f).value, warning)

/-- A module narrowed to the function that is asked for. -/
def narrow (a : ModuleAnalysis) : Option String → Except String ModuleAnalysis
  | none => .ok a
  | some signature =>
    match a.function? signature with
    | some f => .ok { a with functions := [f] }
    | none => .error (ModuleAnalysis.missingFunction signature)

def disassembly (r : Disassembly) (f : Container) : Outcome :=
  let (source, warning) := sourceFor f r.source
  match (Analysis.ofContainer r.options f source).value with
  | .error e => failed warning e.message
  | .ok a =>
    match narrow a r.function with
    | .error message => failed warning message
    | .ok a =>
      let text :=
        if r.yaml then (Report.module a).render
        else if r.stats then String.join (a.functions.map Listing.stats)
        else Listing.module a
      ⟨0, text, warning⟩

def graph (yaml : Bool) (f : Container) : Outcome :=
  match (Analysis.ofContainer ⟨defaultLiteralWidth, none⟩ f none).value with
  | .error e => failed "" e.message
  | .ok a =>
    ⟨0, if yaml then (Report.callGraph a.callGraph).render else a.callGraph.dot a.module, ""⟩

/-- Run a command on a module file, or on the fault that kept it from being read. -/
def run (command : Command) (file : Except Fault Bytes) : Outcome :=
  match file.bind fun data => (Container.parse data).value with
  | .error e => failed "" e.message
  | .ok f =>
    match command with
    | .info => summary f
    | .disassemble r => disassembly r f
    | .callGraph yaml => graph yaml f

end Command

end BeamScope
