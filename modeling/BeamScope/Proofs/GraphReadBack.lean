import BeamScope.Proofs.CallGraphOrder
import BeamScope.Proofs.Drawing

/-!
# The graph in a drawing

A drawing holds its graph whole: the functions and the calls can be read from it in their order, under
the name it was drawn with, whatever characters the identifiers have. So two drawings are the same text
only if they are of one graph under one name. A graph that was built by additions is also built by
adding, one after the other, what its drawing states.
-/

namespace BeamScope.CallGraph

/-! ### Building -/

inductive Addition where
  | node (id : String)
  | edge (caller callee : String)

/-- The functions that an addition puts into a graph. -/
def Addition.ends : Addition → List String
  | .node id => [id]
  | .edge caller callee => [caller, callee]

def add (g : CallGraph) : Addition → CallGraph
  | .node id => g.addNode id
  | .edge caller callee => g.addEdge caller callee

def built (as : List Addition) : CallGraph := as.foldl add empty

theorem WellFormed.add {g : CallGraph} (h : g.WellFormed) (a : Addition) : (g.add a).WellFormed := by
  cases a with
  | node id => exact h.addNode id
  | edge caller callee => exact h.addEdge caller callee

theorem wellFormed_built (as : List Addition) : (built as).WellFormed := by
  apply List.foldlRecOn _ _ WellFormed.empty
  intro g hg a _
  exact hg.add a

theorem mem_nodes_add {g : CallGraph} {a : Addition} {id : String} :
    id ∈ (g.add a).nodes ↔ id ∈ g.nodes ∨ id ∈ a.ends := by
  cases a with
  | node x => simp [add, Addition.ends, or_comm]
  | edge caller callee =>
    simp only [add, Addition.ends, mem_nodes_addEdge, List.mem_cons, List.not_mem_nil, or_false]
    tauto

theorem mem_edges_add {g : CallGraph} {a : Addition} {e : String × String} :
    e ∈ (g.add a).edges ↔ e ∈ g.edges ∨ a = .edge e.1 e.2 := by
  cases a with
  | node x => simp [add, addNode]
  | edge caller callee =>
    simp only [add, mem_edges_addEdge, Addition.edge.injEq, Prod.ext_iff]
    tauto

theorem mem_nodes_foldl_add {g : CallGraph} {as : List Addition} {id : String} :
    id ∈ (as.foldl add g).nodes ↔ id ∈ g.nodes ∨ ∃ a ∈ as, id ∈ a.ends := by
  induction as generalizing g with
  | nil => simp
  | cons a as ih => rw [List.foldl_cons, ih, mem_nodes_add, List.exists_mem_cons_iff, or_assoc]

theorem mem_edges_foldl_add {g : CallGraph} {as : List Addition} {e : String × String} :
    e ∈ (as.foldl add g).edges ↔ e ∈ g.edges ∨ .edge e.1 e.2 ∈ as := by
  induction as generalizing g with
  | nil => simp
  | cons a as ih => rw [List.foldl_cons, ih, mem_edges_add, List.mem_cons, or_assoc, eq_comm]

theorem mem_nodes_built {as : List Addition} {id : String} :
    id ∈ (built as).nodes ↔ ∃ a ∈ as, id ∈ a.ends := by
  rw [built, mem_nodes_foldl_add]
  exact or_iff_right List.not_mem_nil

theorem mem_edges_built {as : List Addition} {e : String × String} :
    e ∈ (built as).edges ↔ .edge e.1 e.2 ∈ as := by
  rw [built, mem_edges_foldl_add]
  exact or_iff_right List.not_mem_nil

/-! ### Reading -/

namespace Statement

def node? : Statement → Option String
  | .node id _ => some id
  | .edge _ _ => none

def edge? : Statement → Option (String × String)
  | .node _ _ => none
  | .edge caller callee => some (caller, callee)

def addition : Statement → Addition
  | .node id _ => .node id
  | .edge caller callee => .edge caller callee

end Statement

/-- The name of a drawing, and its functions and calls in the order of the text. -/
def readGraph (cs : List Char) : Option (String × CallGraph) := do
  let (module, ss) ← readDrawing cs
  return (module, ⟨ss.filterMap Statement.node?, ss.filterMap Statement.edge?⟩)

section Drawn

variable (module : String) (g : CallGraph)

theorem filterMap_node?_statements : (statements module g).filterMap Statement.node? = g.nodes := by
  have hnodes : Statement.node? ∘ (fun id => .node id (shapeOf module id)) = some := rfl
  have hedges : Statement.node? ∘ (fun e : String × String => .edge e.1 e.2) = fun _ => none := rfl
  rw [statements, List.filterMap_append, List.filterMap_map, List.filterMap_map, hnodes, hedges,
    List.filterMap_some, List.filterMap_none, List.append_nil]

theorem filterMap_edge?_statements : (statements module g).filterMap Statement.edge? = g.edges := by
  have hnodes : Statement.edge? ∘ (fun id => .node id (shapeOf module id)) = fun _ => none := rfl
  have hedges : Statement.edge? ∘ (fun e : String × String => .edge e.1 e.2) = some := rfl
  rw [statements, List.filterMap_append, List.filterMap_map, List.filterMap_map, hnodes, hedges,
    List.filterMap_some, List.filterMap_none, List.nil_append]

theorem readGraph_dot : readGraph (dot module g).toList = some (module, g) := by
  rw [readGraph, readDrawing_dot]
  simp only [Option.bind_eq_bind, Option.bind_some, filterMap_node?_statements,
    filterMap_edge?_statements]
  rfl

theorem dot_eq_dot_iff (module' : String) (g' : CallGraph) :
    dot module' g' = dot module g ↔ module' = module ∧ g' = g := by
  constructor
  · intro h
    have hread := readGraph_dot module' g'
    rw [h, readGraph_dot] at hread
    cases hread
    exact ⟨rfl, rfl⟩
  · rintro ⟨rfl, rfl⟩
    rfl

end Drawn

section Replayed

variable {module : String} {g : CallGraph}

theorem mem_additions {a : Addition} : a ∈ (statements module g).map Statement.addition ↔
    (∃ id ∈ g.nodes, a = .node id) ∨ ∃ e ∈ g.edges, a = .edge e.1 e.2 := by
  simp only [statements, List.map_append, List.map_map, List.mem_append, List.mem_map,
    Function.comp_apply, Statement.addition, eq_comm]

/-- What a drawing states adds up to the graph: calls bring no functions that are not drawn. -/
theorem built_additions (h : g.WellFormed) :
    built ((statements module g).map Statement.addition) = g := by
  apply Within.antisymm _ _ (wellFormed_built _) h
  · constructor
    · intro id hid
      obtain ⟨a, ha, hends⟩ := mem_nodes_built.mp hid
      rcases mem_additions.mp ha with ⟨x, hx, rfl⟩ | ⟨e, he, rfl⟩
      · rw [List.mem_singleton.mp hends]
        exact hx
      · obtain ⟨hcaller, hcallee⟩ := h.ends_mem e he
        rcases List.mem_pair.mp hends with rfl | rfl
        · exact hcaller
        · exact hcallee
    · intro e he
      rcases mem_additions.mp (mem_edges_built.mp he) with ⟨x, -, hx⟩ | ⟨e', he', hedge⟩
      · cases hx
      · cases e
        cases hedge
        exact he'
  · constructor
    · intro id hid
      exact mem_nodes_built.mpr ⟨.node id, mem_additions.mpr (.inl ⟨id, hid, rfl⟩), by
        simp [Addition.ends]⟩
    · intro e he
      exact mem_edges_built.mpr (mem_additions.mpr (.inr ⟨e, he, rfl⟩))

end Replayed

/-- The drawing of a graph that was built by additions, in any order and with any identifiers, can be
read back: it gives the name of the module, the functions and the calls as they stand in the graph,
and adding what it states builds the graph again. So graphs that differ, or are drawn under different
names, have different drawings. -/
theorem drawing_reads_back (module : String) (as : List Addition) :
    readGraph (dot module (built as)).toList = some (module, built as) ∧
      (∃ ss, readDrawing (dot module (built as)).toList = some (module, ss) ∧
        built (ss.map Statement.addition) = built as) ∧
      ∀ module' as', dot module' (built as') = dot module (built as) ↔
        module' = module ∧ built as' = built as := by
  refine ⟨readGraph_dot module (built as), ?_, ?_⟩
  · exact ⟨_, readDrawing_dot module (built as), built_additions (wellFormed_built as)⟩
  · intro module' as'
    exact dot_eq_dot_iff module (built as) module' (built as')

end BeamScope.CallGraph
