import Mathlib.Data.String.Basic
import BeamScope.CallGraph.Extract

/-!
# A call graph has the calls of the code and no others

`Targets` says what an instruction calls without saying how it is found: the function named at the
place of the import, or the first one named, or the last function that is entered at the first
label. Its calls are the edges of the graph of a module, and its functions together with what they
call are the nodes, both in ascending order.
-/

namespace BeamScope

/-! ### Ascending lists -/

namespace Ascending

variable {α : Type} {cmp : α → α → Ordering}

theorem mem_insert [Std.LawfulEqCmp cmp] {a b : α} {l : List α} :
    b ∈ insert cmp a l ↔ b = a ∨ b ∈ l := by
  induction l with
  | nil => simp [insert]
  | cons c l ih =>
    unfold insert
    cases hc : cmp a c with
    | lt => exact List.mem_cons
    | eq =>
      have hac : a = c := Std.LawfulEqCmp.eq_of_compare hc
      simp [hac]
    | gt => simp only [List.mem_cons, ih, or_left_comm]

theorem pairwise_insert [Std.TransCmp cmp] [Std.LawfulEqCmp cmp] (a : α) {l : List α}
    (h : l.Pairwise fun b c => cmp b c = .lt) :
    (insert cmp a l).Pairwise fun b c => cmp b c = .lt := by
  induction l with
  | nil => simp [insert]
  | cons b l ih =>
    obtain ⟨hb, hl⟩ := List.pairwise_cons.mp h
    unfold insert
    cases hc : cmp a b with
    | lt =>
      refine List.pairwise_cons.mpr ⟨?_, h⟩
      intro d hd
      rcases List.mem_cons.mp hd with rfl | hd
      · exact hc
      · exact Std.TransCmp.lt_trans hc (hb d hd)
    | eq => exact h
    | gt =>
      refine List.pairwise_cons.mpr ⟨?_, ih hl⟩
      intro d hd
      rcases mem_insert.mp hd with rfl | hd
      · exact Std.OrientedCmp.gt_iff_lt.mp hc
      · exact hb d hd

end Ascending

namespace CallGraph

/-! ### Graphs -/

instance : Std.TransCmp compareEdges :=
  inferInstanceAs (Std.TransCmp (compareLex (compareOn Prod.fst) (compareOn Prod.snd)))

instance : Std.LawfulEqCmp compareEdges where
  compare_self {a} := by simp [compareEdges]
  eq_of_compare {a b} h := by
    simp only [compareEdges, Ordering.then_eq_eq, Std.LawfulEqOrd.compare_eq_iff_eq] at h
    exact Prod.ext h.1 h.2

theorem compareEdges_eq_lt {a b : String × String} :
    compareEdges a b = .lt ↔ Prod.Lex (· < ·) (· < ·) a b := by
  rw [compareEdges, Ordering.then_eq_lt, compare_lt_iff_lt, compare_lt_iff_lt,
    Std.LawfulEqOrd.compare_eq_iff_eq, Prod.lex_def]

@[simp] theorem mem_nodes_addNode {g : CallGraph} {id x : String} :
    x ∈ (g.addNode id).nodes ↔ x = id ∨ x ∈ g.nodes := Ascending.mem_insert

@[simp] theorem mem_nodes_addEdge {g : CallGraph} {caller callee x : String} :
    x ∈ (g.addEdge caller callee).nodes ↔ x = callee ∨ x = caller ∨ x ∈ g.nodes := by
  simp only [addEdge, Ascending.mem_insert]

@[simp] theorem mem_edges_addEdge {g : CallGraph} {caller callee : String}
    {e : String × String} :
    e ∈ (g.addEdge caller callee).edges ↔ e = (caller, callee) ∨ e ∈ g.edges :=
  Ascending.mem_insert

/-- Both lists ascend, and calls are between functions of the graph. -/
structure WellFormed (g : CallGraph) : Prop where
  nodes_ascend : g.nodes.Pairwise (· < ·)
  edges_ascend : g.edges.Pairwise (Prod.Lex (· < ·) (· < ·))
  ends_mem : ∀ e ∈ g.edges, e.1 ∈ g.nodes ∧ e.2 ∈ g.nodes

theorem pairwise_insert_node {nodes : List String} (h : nodes.Pairwise (· < ·)) (id : String) :
    (Ascending.insert compare id nodes).Pairwise (· < ·) := by
  refine (Ascending.pairwise_insert id (h.imp ?_)).imp ?_
  · exact compare_lt_iff_lt.mpr
  · exact compare_lt_iff_lt.mp

theorem pairwise_insert_edge {edges : List (String × String)}
    (h : edges.Pairwise (Prod.Lex (· < ·) (· < ·))) (e : String × String) :
    (Ascending.insert compareEdges e edges).Pairwise (Prod.Lex (· < ·) (· < ·)) := by
  refine (Ascending.pairwise_insert e (h.imp ?_)).imp ?_
  · exact compareEdges_eq_lt.mpr
  · exact compareEdges_eq_lt.mp

namespace WellFormed

theorem empty : CallGraph.empty.WellFormed := ⟨.nil, .nil, by simp [CallGraph.empty]⟩

theorem addNode {g : CallGraph} (h : g.WellFormed) (id : String) : (g.addNode id).WellFormed := by
  refine ⟨pairwise_insert_node h.nodes_ascend id, h.edges_ascend, ?_⟩
  intro e he
  obtain ⟨hcaller, hcallee⟩ := h.ends_mem e he
  simp [hcaller, hcallee]

theorem addEdge {g : CallGraph} (h : g.WellFormed) (caller callee : String) :
    (g.addEdge caller callee).WellFormed := by
  refine ⟨?_, pairwise_insert_edge h.edges_ascend _, ?_⟩
  · exact pairwise_insert_node (pairwise_insert_node h.nodes_ascend caller) callee
  · intro e he
    rcases mem_edges_addEdge.mp he with rfl | he
    · simp
    · obtain ⟨hcaller, hcallee⟩ := h.ends_mem e he
      simp [hcaller, hcallee]

end WellFormed

/-! ### Targets -/

/-- `i` names `f`: at the place of its import or, if no function stands there, before any other. -/
inductive Names (i : RawInstruction) : ExtFunc → Prop where
  | atImport {n : Nat} {f : ExtFunc} (himport : i.info.importOperand = some n)
      (hf : i.operands[n]? = some (.extFunc f)) : Names i f
  | first {before after : List Operand} {f : ExtFunc}
      (himport : ∀ n g, i.info.importOperand = some n → i.operands[n]? ≠ some (.extFunc g))
      (hsplit : i.operands = before ++ .extFunc f :: after) (hfirst : ∀ g, .extFunc g ∉ before) :
      Names i f

/-- The first label of `i` is the entry of `f`, and of no function behind `f`. -/
inductive Enters (fs : List RawFunction) (i : RawInstruction) : RawFunction → Prop where
  | intro {before after : List Operand} {front back : List RawFunction} {f : RawFunction}
      (hsplit : i.operands = before ++ .label f.entry :: after)
      (hfirst : ∀ n, .label n ∉ before) (hf : fs = front ++ f :: back)
      (hlast : ∀ g ∈ back, g.entry ≠ f.entry) : Enters fs i f

/-- What an instruction calls in a module with the functions `fs`. -/
inductive Targets (module : String) (fs : List RawFunction) (i : RawInstruction) : String → Prop where
  | named {f : ExtFunc} (hdynamic : i.info.has .dynamicCall = false)
      (hcall : i.info.has .externalCall = true ∨ i.info.has .bifCall = true) (hf : Names i f) :
      Targets module fs i (nodeId f.module f.function f.arity)
  | entered {f : RawFunction} (hdynamic : i.info.has .dynamicCall = false)
      (hexternal : i.info.has .externalCall = false) (hbif : i.info.has .bifCall = false)
      (hcall : i.info.has .localCall = true) (hf : Enters fs i f) :
      Targets module fs i (nodeId module f.name f.arity)

theorem asExtFunc?_eq_some {o : Operand} {f : ExtFunc} :
    o.asExtFunc? = some f ↔ o = .extFunc f := by
  cases o <;> simp [Operand.asExtFunc?]

theorem findSome?_asExtFunc? {os : List Operand} {f : ExtFunc} :
    os.findSome? Operand.asExtFunc? = some f ↔
      ∃ before after, os = before ++ .extFunc f :: after ∧ ∀ g, .extFunc g ∉ before := by
  rw [List.findSome?_eq_some_iff]
  constructor
  · rintro ⟨before, o, after, hsplit, ho, hnone⟩
    rw [asExtFunc?_eq_some.mp ho] at hsplit
    refine ⟨before, after, hsplit, ?_⟩
    intro g hg
    cases hnone _ hg
  · rintro ⟨before, after, hsplit, hfirst⟩
    refine ⟨before, .extFunc f, after, hsplit, rfl, ?_⟩
    intro o ho
    cases hf : o.asExtFunc? with
    | none => rfl
    | some g => exact absurd (asExtFunc?_eq_some.mp hf ▸ ho) (hfirst g)

theorem namedFunction?_eq_some {i : RawInstruction} {f : ExtFunc} :
    namedFunction? i = some f ↔ Names i f := by
  have himport (g : ExtFunc) :
      ((i.info.importOperand.bind fun n => i.operands[n]?).bind Operand.asExtFunc?) = some g ↔
        ∃ n, i.info.importOperand = some n ∧ i.operands[n]? = some (.extFunc g) := by
    simp only [Option.bind_eq_some_iff, asExtFunc?_eq_some, exists_eq_right]
  rw [namedFunction?, Option.or_eq_some_iff, himport, findSome?_asExtFunc?,
    Option.eq_none_iff_forall_ne_some]
  constructor
  · rintro (⟨n, hn, hf⟩ | ⟨hnone, before, after, hsplit, hfirst⟩)
    · exact .atImport hn hf
    · refine .first ?_ hsplit hfirst
      intro n g hn hg
      exact hnone g ((himport g).mpr ⟨n, hn, hg⟩)
  · rintro (⟨hn, hf⟩ | ⟨hnone, hsplit, hfirst⟩)
    · exact .inl ⟨_, hn, hf⟩
    · refine .inr ⟨?_, _, _, hsplit, hfirst⟩
      intro g hg
      obtain ⟨n, hn, hg⟩ := (himport g).mp hg
      exact hnone n g hn hg

/-- The entries that the graph of a module is made with. -/
def entriesOf (module : String) (fs : List RawFunction) : Entries :=
  fs.map fun f => (f.entry, idOf module f)

theorem get?_entriesOf {module : String} {fs : List RawFunction} {label : Nat} {id : String} :
    (entriesOf module fs).get? label = some id ↔
      ∃ front f back, fs = front ++ f :: back ∧ f.entry = label ∧
        (∀ g ∈ back, g.entry ≠ label) ∧ idOf module f = id := by
  have hget : (entriesOf module fs).get? label =
      (fs.reverse.find? fun f => f.entry == label).map (idOf module) := by
    simp only [Entries.get?, entriesOf, ← List.map_reverse, List.find?_map, Option.map_map]
    rfl
  simp only [hget, Option.map_eq_some_iff, List.find?_eq_some_iff_append, beq_iff_eq]
  constructor
  · rintro ⟨f, ⟨hf, back, front, hsplit, hback⟩, hid⟩
    refine ⟨front.reverse, f, back.reverse, ?_, hf, ?_, hid⟩
    · rw [← List.reverse_reverse fs, hsplit]
      simp
    · intro g hg
      simpa using hback g (List.mem_reverse.mp hg)
  · rintro ⟨front, f, back, hsplit, hf, hback, hid⟩
    refine ⟨f, ⟨hf, back.reverse, front.reverse, ?_, ?_⟩, hid⟩
    · simp [hsplit]
    · intro g hg
      simpa using hback g (List.mem_reverse.mp hg)

theorem targetLabel?_eq_some {i : RawInstruction} {n : Nat} :
    targetLabel? i = some n ↔
      ∃ before after, i.operands = before ++ .label n :: after ∧ ∀ m, .label m ∉ before := by
  rw [targetLabel?, List.findSome?_eq_some_iff]
  constructor
  · rintro ⟨before, o, after, hsplit, ho, hnone⟩
    split at ho
    · cases ho
      refine ⟨before, after, hsplit, ?_⟩
      intro m hm
      cases hnone _ hm
    · cases ho
  · rintro ⟨before, after, hsplit, hfirst⟩
    refine ⟨before, .label n, after, hsplit, rfl, ?_⟩
    intro o ho
    split
    · exact absurd ho (hfirst _)
    · rfl

theorem bind_get?_entriesOf {module : String} {fs : List RawFunction} {i : RawInstruction}
    {id : String} :
    (targetLabel? i).bind (entriesOf module fs).get? = some id ↔
      ∃ f, Enters fs i f ∧ idOf module f = id := by
  simp only [Option.bind_eq_some_iff, targetLabel?_eq_some, get?_entriesOf]
  constructor
  · rintro ⟨_, ⟨before, after, hsplit, hfirst⟩, front, f, back, hf, rfl, hlast, hid⟩
    exact ⟨f, ⟨hsplit, hfirst, hf, hlast⟩, hid⟩
  · rintro ⟨f, ⟨hsplit, hfirst, hf, hlast⟩, hid⟩
    exact ⟨f.entry, ⟨_, _, hsplit, hfirst⟩, _, f, _, hf, rfl, hlast, hid⟩

theorem targets_of_callTarget? {module : String} {fs : List RawFunction} {i : RawInstruction}
    {t : String} (h : callTarget? (entriesOf module fs) i = some t) : Targets module fs i t := by
  simp only [callTarget?] at h
  split at h
  · cases h
  next hdynamic =>
    split at h
    next hcall =>
      obtain ⟨f, hf, rfl⟩ := Option.map_eq_some_iff.mp h
      exact .named (by simpa using hdynamic) (by simpa using hcall) (namedFunction?_eq_some.mp hf)
    next hnamed =>
      split at h
      next hcall =>
        obtain ⟨f, hf, rfl⟩ := bind_get?_entriesOf.mp h
        simp only [Bool.or_eq_true, not_or, Bool.not_eq_true] at hnamed
        exact .entered (by simpa using hdynamic) hnamed.1 hnamed.2 hcall hf
      · cases h

theorem callTarget?_eq_some {module : String} {fs : List RawFunction} {i : RawInstruction}
    {t : String} : callTarget? (entriesOf module fs) i = some t ↔ Targets module fs i t := by
  refine ⟨targets_of_callTarget?, ?_⟩
  intro h
  cases h with
  | named hdynamic hcall hf =>
    have hnamed := namedFunction?_eq_some.mpr hf
    simp [callTarget?, hdynamic, hcall, hnamed]
  | @entered f hdynamic hexternal hbif hcall hf =>
    have hentered : (targetLabel? i).bind (entriesOf module fs).get? = some (idOf module f) :=
      bind_get?_entriesOf.mpr ⟨f, hf, rfl⟩
    simp only [callTarget?, hdynamic, hexternal, hbif, hcall, hentered]
    rfl

theorem not_targets_of_lookup_none {module : String} {fs : List RawFunction} {i : RawInstruction}
    (h : Opcode.lookup i.opcode = none) (t : String) : ¬Targets module fs i t := by
  have hinfo : i.info = Opcode.placeholder i.opcode := by
    simp [RawInstruction.info, Opcode.describe, h]
  rintro (⟨-, hcall | hcall, -⟩ | ⟨-, -, -, hcall, -⟩) <;>
    simp [hinfo, Opcode.placeholder, Opcode.has] at hcall

/-! ### The graph of a module -/

section Calls

variable {module : String} {es : Entries} {f : RawFunction}

theorem WellFormed.addCalls {g : CallGraph} (h : g.WellFormed) :
    (addCalls module es g f).WellFormed := by
  unfold CallGraph.addCalls
  refine List.foldlRecOn _ _ h ?_
  intro g hg t _
  exact hg.addEdge _ t

theorem mem_edges_addCalls {g : CallGraph} {e : String × String} :
    e ∈ (addCalls module es g f).edges ↔
      e ∈ g.edges ∨ e.1 = idOf module f ∧ ∃ i ∈ f.code, callTarget? es i = some e.2 := by
  simp only [← List.mem_filterMap]
  unfold addCalls
  induction f.code.filterMap (callTarget? es) generalizing g with
  | nil => simp
  | cons t ts ih =>
    rw [List.foldl_cons, ih, mem_edges_addEdge, Prod.ext_iff, List.mem_cons]
    tauto

theorem mem_nodes_addCalls {g : CallGraph} (hf : idOf module f ∈ g.nodes) {id : String} :
    id ∈ (addCalls module es g f).nodes ↔
      id ∈ g.nodes ∨ ∃ i ∈ f.code, callTarget? es i = some id := by
  simp only [← List.mem_filterMap]
  unfold addCalls
  induction f.code.filterMap (callTarget? es) generalizing g with
  | nil => simp
  | cons t ts ih =>
    rw [List.foldl_cons, ih (by simp [hf]), mem_nodes_addEdge, List.mem_cons]
    constructor
    · rintro ((rfl | rfl | hid) | hid) <;> simp [*]
    · tauto

end Calls

section Functions

variable {module : String} {es : Entries} {fs : List RawFunction} {g : CallGraph}

theorem mem_nodes_foldl_addNode {id : String} :
    id ∈ (fs.foldl (fun g f => g.addNode (idOf module f)) g).nodes ↔
      id ∈ g.nodes ∨ ∃ f ∈ fs, id = idOf module f := by
  induction fs generalizing g with
  | nil => simp
  | cons f fs ih =>
    rw [List.foldl_cons, ih, mem_nodes_addNode, List.exists_mem_cons_iff]
    tauto

theorem edges_foldl_addNode :
    (fs.foldl (fun g f => g.addNode (idOf module f)) g).edges = g.edges := by
  induction fs generalizing g with
  | nil => rfl
  | cons f fs ih => exact ih

theorem mem_edges_foldl_addCalls {e : String × String} :
    e ∈ (fs.foldl (addCalls module es) g).edges ↔
      e ∈ g.edges ∨
        ∃ f ∈ fs, e.1 = idOf module f ∧ ∃ i ∈ f.code, callTarget? es i = some e.2 := by
  induction fs generalizing g with
  | nil => simp
  | cons f fs ih =>
    rw [List.foldl_cons, ih, mem_edges_addCalls, List.exists_mem_cons_iff, or_assoc]

theorem mem_nodes_foldl_addCalls (hfs : ∀ f ∈ fs, idOf module f ∈ g.nodes) {id : String} :
    id ∈ (fs.foldl (addCalls module es) g).nodes ↔
      id ∈ g.nodes ∨ ∃ f ∈ fs, ∃ i ∈ f.code, callTarget? es i = some id := by
  induction fs generalizing g with
  | nil => simp
  | cons f fs ih =>
    have hf := hfs f (List.mem_cons_self ..)
    have hrest : ∀ f' ∈ fs, idOf module f' ∈ (addCalls module es g f).nodes := by
      intro f' hf'
      exact (mem_nodes_addCalls hf).mpr (.inl (hfs f' (List.mem_cons_of_mem _ hf')))
    rw [List.foldl_cons, ih hrest, mem_nodes_addCalls hf, List.exists_mem_cons_iff, or_assoc]

end Functions

theorem wellFormed_ofFunctions (module : String) (fs : List RawFunction) :
    (ofFunctions module fs).WellFormed := by
  have hnodes : (fs.foldl (fun g f => g.addNode (idOf module f)) CallGraph.empty).WellFormed := by
    refine List.foldlRecOn _ _ WellFormed.empty ?_
    intro g hg f _
    exact hg.addNode _
  refine List.foldlRecOn _ _ hnodes ?_
  intro g hg f _
  exact hg.addCalls

theorem mem_edges_ofFunctions {module : String} {fs : List RawFunction} {e : String × String} :
    e ∈ (ofFunctions module fs).edges ↔
      ∃ f ∈ fs, e.1 = idOf module f ∧ ∃ i ∈ f.code, Targets module fs i e.2 := by
  unfold ofFunctions
  rw [mem_edges_foldl_addCalls, edges_foldl_addNode]
  simp only [CallGraph.empty, List.not_mem_nil, false_or, ← callTarget?_eq_some]
  rfl

theorem mem_nodes_ofFunctions {module : String} {fs : List RawFunction} {id : String} :
    id ∈ (ofFunctions module fs).nodes ↔
      (∃ f ∈ fs, id = idOf module f) ∨ ∃ f ∈ fs, ∃ i ∈ f.code, Targets module fs i id := by
  have hfs : ∀ f ∈ fs, idOf module f ∈
      (fs.foldl (fun g f => g.addNode (idOf module f)) CallGraph.empty).nodes := by
    intro f hf
    exact mem_nodes_foldl_addNode.mpr (.inr ⟨f, hf, rfl⟩)
  unfold ofFunctions
  rw [mem_nodes_foldl_addCalls hfs, mem_nodes_foldl_addNode]
  simp only [CallGraph.empty, List.not_mem_nil, false_or, ← callTarget?_eq_some]
  rfl

/-- The call graph of a module is exact: its calls are those that the instructions of its functions
make, and its functions are those of the module and those called. Both ascend strictly, and both
ends of every call are in the graph. An instruction with an unknown opcode calls nothing. -/
theorem ofFunctions_exact (module : String) (fs : List RawFunction) :
    let g := ofFunctions module fs
    (∀ caller callee, (caller, callee) ∈ g.edges ↔
      ∃ f ∈ fs, ∃ i ∈ f.code, caller = nodeId module f.name f.arity ∧ Targets module fs i callee) ∧
    (∀ id, id ∈ g.nodes ↔
      (∃ f ∈ fs, id = nodeId module f.name f.arity) ∨ ∃ caller, (caller, id) ∈ g.edges) ∧
    g.edges.Pairwise (Prod.Lex (· < ·) (· < ·)) ∧ g.nodes.Pairwise (· < ·) ∧
    (∀ e ∈ g.edges, e.1 ∈ g.nodes ∧ e.2 ∈ g.nodes) ∧
    ∀ i t, Opcode.lookup i.opcode = none → ¬Targets module fs i t := by
  intro g
  have hg := wellFormed_ofFunctions module fs
  refine ⟨?_, ?_, hg.edges_ascend, hg.nodes_ascend, hg.ends_mem, ?_⟩
  · intro caller callee
    rw [mem_edges_ofFunctions]
    constructor
    · rintro ⟨f, hf, hcaller, i, hi, ht⟩
      exact ⟨f, hf, i, hi, hcaller, ht⟩
    · rintro ⟨f, hf, i, hi, hcaller, ht⟩
      exact ⟨f, hf, hcaller, i, hi, ht⟩
  · intro id
    rw [mem_nodes_ofFunctions]
    refine or_congr_right ?_
    constructor
    · rintro ⟨f, hf, i, hi, ht⟩
      exact ⟨idOf module f, mem_edges_ofFunctions.mpr ⟨f, hf, rfl, i, hi, ht⟩⟩
    · rintro ⟨caller, he⟩
      obtain ⟨f, hf, -, i, hi, ht⟩ := mem_edges_ofFunctions.mp he
      exact ⟨f, hf, i, hi, ht⟩
  · intro i t hi
    exact not_targets_of_lookup_none hi t

-- Two functions are entered at label 4, and the call leads to the later one.
example :
    ofFunctions "m" [⟨"f", 0, 2, [⟨4, [.unsigned 0, .label 4]⟩]⟩, ⟨"g", 0, 4, []⟩,
      ⟨"h", 0, 4, []⟩] = ⟨["m.f/0", "m.g/0", "m.h/0"], [("m.f/0", "m.h/0")]⟩ := by
  decide +kernel

end CallGraph

end BeamScope
