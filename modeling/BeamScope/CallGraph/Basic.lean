import BeamScope.Ascending

/-!
# Call graphs

A set of functions and a set of calls between them, both enumerated in ascending order. Every end
of a call is one of the functions.
-/

namespace BeamScope

structure CallGraph where
  nodes : List String
  edges : List (String × String)
  deriving Repr, DecidableEq

namespace CallGraph

def empty : CallGraph := ⟨[], []⟩

/-- The name of a function: `module.name/arity`. -/
def nodeId (module name : String) (arity : Nat) : String := s!"{module}.{name}/{arity}"

/-- Calls are ordered by caller, then by callee. -/
def compareEdges (a b : String × String) : Ordering :=
  (compare a.1 b.1).then (compare a.2 b.2)

def addNode (g : CallGraph) (id : String) : CallGraph :=
  { g with nodes := Ascending.insert compare id g.nodes }

def addEdge (g : CallGraph) (caller callee : String) : CallGraph :=
  { nodes := Ascending.insert compare callee (Ascending.insert compare caller g.nodes)
    edges := Ascending.insert compareEdges (caller, callee) g.edges }

def hasNode (g : CallGraph) (id : String) : Bool := g.nodes.contains id

def hasEdge (g : CallGraph) (caller callee : String) : Bool := g.edges.contains (caller, callee)

def callees (g : CallGraph) (caller : String) : List String :=
  (g.edges.filter fun e => e.1 == caller).map Prod.snd

end CallGraph

end BeamScope
