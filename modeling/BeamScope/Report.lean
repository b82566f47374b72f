import BeamScope.Analysis
import BeamScope.Yaml.Block

/-!
# Reports

An analysis as a YAML value, for other programs to read.
-/

namespace BeamScope.Report

def optional (f : α → Yaml) : Option α → Yaml
  | none => .null
  | some a => f a

def instruction (i : Instruction) : Yaml :=
  .record [("category", .text i.category.name), ("mnemonic", .text i.mnemonic),
    ("operands", .list (i.operands.map .text))]

def group (g : SourceGroup) : Yaml :=
  .record [("line", optional .number g.line), ("source", optional .text g.source),
    ("instructions", .list (g.instructions.map instruction)), ("mode", .text g.mode.name)]

def function (f : FunctionListing) : Yaml :=
  .record [("signature", .text f.signature), ("entry", .number f.entry),
    ("anchor", optional .number f.anchor),
    ("categories", .record (f.categories.map fun (c, n) => (c.name, .number n))),
    ("groups", .list (f.groups.map group))]

def callGraph (g : CallGraph) : Yaml :=
  .record [("nodes", .list (g.nodes.map .text)),
    ("edges", .list (g.edges.map fun (a, b) => .list [.text a, .text b]))]

def module (a : ModuleAnalysis) : Yaml :=
  .record [("module", .text a.module), ("exports", .list (a.exports.map .text)),
    ("functions", .list (a.functions.map function)), ("call_graph", callGraph a.callGraph)]

end BeamScope.Report
