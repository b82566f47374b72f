import Mathlib.Data.List.Sort
import BeamScope.CallGraph.Dot
import BeamScope.Proofs.CallGraphExact

/-!
# A call graph does not depend on order or repetition

A well-formed graph is known by which functions and calls are in it. Which are depends on the code of
a module in two ways: on what the functions call, where order and repetition play no part, and on the
entries that lead a label to a function, where of two functions with one entry the later counts. If
those two have one name and arity, it does not matter which is found.
-/

namespace BeamScope

/-- One function, but for the order of its instructions and how often each occurs. -/
structure RawFunction.Alike (f g : RawFunction) : Prop where
  name_eq : f.name = g.name
  arity_eq : f.arity = g.arity
  entry_eq : f.entry = g.entry
  mem_code : ∀ i, i ∈ f.code ↔ i ∈ g.code

namespace CallGraph

/-! ### Graphs -/

/-- Every function and every call of `g` is in `h`. -/
structure Within (g h : CallGraph) : Prop where
  nodes_subset : g.nodes ⊆ h.nodes
  edges_subset : g.edges ⊆ h.edges

theorem Within.antisymm {g h : CallGraph} (hgh : g.Within h) (hhg : h.Within g)
    (hg : g.WellFormed) (hh : h.WellFormed) : g = h := by
  have hnodes : g.nodes = h.nodes :=
    List.Subset.antisymm_of_pairwise hg.nodes_ascend hh.nodes_ascend hgh.nodes_subset
      hhg.nodes_subset
  have hedges : g.edges = h.edges :=
    List.Subset.antisymm_of_pairwise hg.edges_ascend hh.edges_ascend hgh.edges_subset
      hhg.edges_subset
  cases g
  cases h
  cases hnodes
  cases hedges
  rfl

/-! ### Entries -/

def Covered (fs gs : List RawFunction) : Prop := ∀ f ∈ fs, ∃ g ∈ gs, f.Alike g

/-- Functions that differ in name or arity have different entries. -/
def EntriesApart (fs : List RawFunction) : Prop :=
  ∀ f ∈ fs, ∀ g ∈ fs, f.entry = g.entry → f.name = g.name ∧ f.arity = g.arity

variable {module : String} {fs gs : List RawFunction}

theorem idOf_of_alike {f g : RawFunction} (h : f.Alike g) : idOf module f = idOf module g := by
  rw [idOf, idOf, h.name_eq, h.arity_eq]

theorem EntriesApart.of_covered (h : EntriesApart fs) (hcovered : Covered gs fs) :
    EntriesApart gs := by
  intro g hg g' hg' hentry
  obtain ⟨f, hf, hfg⟩ := hcovered g hg
  obtain ⟨f', hf', hfg'⟩ := hcovered g' hg'
  have hsame : f.entry = f'.entry := by rw [← hfg.entry_eq, hentry, hfg'.entry_eq]
  obtain ⟨hname, harity⟩ := h f hf f' hf' hsame
  constructor
  · rw [hfg.name_eq, hname, hfg'.name_eq]
  · rw [hfg.arity_eq, harity, hfg'.arity_eq]

theorem get?_entriesOf_of_mem (h : EntriesApart fs) {f : RawFunction} (hf : f ∈ fs) :
    (entriesOf module fs).get? f.entry = some (idOf module f) := by
  cases hget : (entriesOf module fs).get? f.entry with
  | none =>
    simp only [Entries.get?, entriesOf, Option.map_eq_none_iff, List.find?_eq_none,
      List.mem_reverse, List.mem_map] at hget
    exact absurd (beq_self_eq_true _) (hget _ ⟨f, hf, rfl⟩)
  | some id =>
    obtain ⟨front, g, back, hsplit, hentry, -, rfl⟩ := get?_entriesOf.mp hget
    have hg : g ∈ fs := by simp [hsplit]
    obtain ⟨hname, harity⟩ := h g hg f hf hentry
    rw [idOf, idOf, hname, harity]

theorem Covered.get?_entriesOf (h : Covered fs gs) (hgs : EntriesApart gs) {label : Nat}
    {id : String} (hget : (entriesOf module fs).get? label = some id) :
    (entriesOf module gs).get? label = some id := by
  obtain ⟨front, f, back, hsplit, rfl, -, rfl⟩ := CallGraph.get?_entriesOf.mp hget
  obtain ⟨g, hg, hfg⟩ := h f (by simp [hsplit])
  rw [hfg.entry_eq, idOf_of_alike hfg]
  exact get?_entriesOf_of_mem hgs hg

/-! ### Calls -/

theorem callTarget?_of_get? {es es' : Entries} {i : RawInstruction} {t : String}
    (h : ∀ label id, es.get? label = some id → es'.get? label = some id)
    (ht : callTarget? es i = some t) : callTarget? es' i = some t := by
  simp only [callTarget?] at ht ⊢
  split at ht
  · cases ht
  next hdynamic =>
    rw [if_neg hdynamic]
    split at ht
    next hnamed =>
      rw [if_pos hnamed]
      exact ht
    next hnamed =>
      rw [if_neg hnamed]
      split at ht
      next hlocal =>
        obtain ⟨label, hlabel, hget⟩ := Option.bind_eq_some_iff.mp ht
        rw [if_pos hlocal, hlabel]
        exact h label t hget
      · cases ht

theorem Covered.targets (h : Covered fs gs) (hgs : EntriesApart gs) {i : RawInstruction}
    {t : String} (ht : Targets module fs i t) : Targets module gs i t := by
  rw [← callTarget?_eq_some] at ht ⊢
  apply callTarget?_of_get? _ ht
  intro label id hget
  exact h.get?_entriesOf hgs hget

theorem Covered.within (h : Covered fs gs) (hgs : EntriesApart gs) :
    (ofFunctions module fs).Within (ofFunctions module gs) := by
  constructor
  · intro id hid
    rw [mem_nodes_ofFunctions] at hid ⊢
    rcases hid with ⟨f, hf, rfl⟩ | ⟨f, hf, i, hi, ht⟩
    · obtain ⟨g, hg, hfg⟩ := h f hf
      exact .inl ⟨g, hg, idOf_of_alike hfg⟩
    · obtain ⟨g, hg, hfg⟩ := h f hf
      exact .inr ⟨g, hg, i, (hfg.mem_code i).mp hi, h.targets hgs ht⟩
  · intro e he
    rw [mem_edges_ofFunctions] at he ⊢
    obtain ⟨f, hf, hcaller, i, hi, ht⟩ := he
    obtain ⟨g, hg, hfg⟩ := h f hf
    rw [idOf_of_alike hfg] at hcaller
    exact ⟨g, hg, hcaller, i, (hfg.mem_code i).mp hi, h.targets hgs ht⟩

/-- The call graph of a module and its drawing stay the same when its functions, and the instructions
within them, are put in another order or repeated. It is enough that functions that differ in name or
arity have different entries. -/
theorem ofFunctions_of_any_order (module : String) (fs gs : List RawFunction)
    (hfs : Covered fs gs) (hgs : Covered gs fs) (hentries : EntriesApart fs) :
    ofFunctions module fs = ofFunctions module gs ∧
      dot module (ofFunctions module fs) = dot module (ofFunctions module gs) := by
  have heq : ofFunctions module fs = ofFunctions module gs := by
    apply Within.antisymm
    · exact hfs.within (hentries.of_covered hgs)
    · exact hgs.within hentries
    · exact wellFormed_ofFunctions module fs
    · exact wellFormed_ofFunctions module gs
  rw [heq]
  exact ⟨rfl, rfl⟩

-- `g` comes first and twice, and `f` makes one of its calls twice and in front of the other.
theorem ofFunctions_of_any_order_repeated :
    let call : RawInstruction := ⟨4, [.unsigned 0, .label 4]⟩
    let format : RawInstruction := ⟨7, [.unsigned 1, .extFunc ⟨"io", "format", 1⟩]⟩
    let f : RawFunction := ⟨"f", 0, 2, [call, format]⟩
    let f' : RawFunction := ⟨"f", 0, 2, [format, call, format]⟩
    let g : RawFunction := ⟨"g", 0, 4, [format]⟩
    Covered [f, g] [g, f', g] ∧ Covered [g, f', g] [f, g] ∧ EntriesApart [f, g] ∧
      ofFunctions "m" [f, g] = ofFunctions "m" [g, f', g] ∧
      dot "m" (ofFunctions "m" [f, g]) = dot "m" (ofFunctions "m" [g, f', g]) ∧
      (ofFunctions "m" [f, g]).edges =
        [("m.f/0", "io.format/1"), ("m.f/0", "m.g/0"), ("m.g/0", "io.format/1")] := by
  intro call format f f' g
  have hcode (i : RawInstruction) : i ∈ f.code ↔ i ∈ f'.code := by
    simp only [f, f', List.mem_cons, List.not_mem_nil, or_false]
    tauto
  have hf : f.Alike f' := ⟨rfl, rfl, rfl, hcode⟩
  have hf' : f'.Alike f := ⟨rfl, rfl, rfl, fun i => (hcode i).symm⟩
  have hg : g.Alike g := ⟨rfl, rfl, rfl, fun _ => Iff.rfl⟩
  have hfs : Covered [f, g] [g, f', g] := by simp [Covered, hf, hg]
  have hgs : Covered [g, f', g] [f, g] := by simp [Covered, hf', hg]
  have hentries : EntriesApart [f, g] := by
    unfold EntriesApart
    decide +kernel +zetaReduce
  obtain ⟨hgraph, hdot⟩ := ofFunctions_of_any_order "m" [f, g] [g, f', g] hfs hgs hentries
  exact ⟨hfs, hgs, hentries, hgraph, hdot, by decide +kernel +zetaReduce⟩

-- Two functions of different names are entered at label 4, and the call leads to the later one.
example :
    let call : RawInstruction := ⟨4, [.unsigned 0, .label 4]⟩
    ofFunctions "m" [⟨"f", 0, 2, [call]⟩, ⟨"g", 0, 4, []⟩, ⟨"h", 0, 4, []⟩] ≠
      ofFunctions "m" [⟨"f", 0, 2, [call]⟩, ⟨"h", 0, 4, []⟩, ⟨"g", 0, 4, []⟩] := by
  decide +kernel

end CallGraph

end BeamScope
