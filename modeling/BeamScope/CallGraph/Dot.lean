import BeamScope.CallGraph.Basic
import BeamScope.Format.Literal
import BeamScope.Text.Lines

/-!
# Call graphs as drawings

A call graph in the DOT language. Functions of the module are boxes, others are ellipses.
-/

namespace BeamScope.CallGraph

def quoteChars (id : String) : List Char := ['"'] ++ Format.escape id.toList ++ ['"']

/-- Whether a function is one of the module. -/
def isLocal (module node : String) : Bool :=
  (Text.after? (module.toList ++ ['.']) node.toList).isSome

def nodeLine (module node : String) : List Char :=
  let shape := if isLocal module node then "box" else "ellipse"
  "    ".toList ++ quoteChars node ++ " [shape=".toList ++ shape.toList ++ "];\n".toList

def edgeLine (e : String × String) : List Char :=
  "    ".toList ++ quoteChars e.1 ++ " -> ".toList ++ quoteChars e.2 ++ ";\n".toList

/-- A graph drawn under the name of a module. -/
def dotChars (module : String) (g : CallGraph) : List Char :=
  "digraph ".toList ++ quoteChars module ++ " \x7b\n".toList ++ g.nodes.flatMap (nodeLine module) ++
    g.edges.flatMap edgeLine ++ "\x7d\n".toList

/-- A graph drawn under the name of a module. -/
def dot (module : String) (g : CallGraph) : String := String.ofList (dotChars module g)

end BeamScope.CallGraph
