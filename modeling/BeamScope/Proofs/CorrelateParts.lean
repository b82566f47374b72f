import Mathlib.Data.List.Basic
import BeamScope.Source.Groups

/-!
# Groups can be found part by part

A function may be cut before any of its line markers, and each part grouped by itself: merging the
groups of the parts, from the left, gives the groups of the whole. Two facts carry this. Merging is
associative, also where neighbours join; and the scan forgets everything at a line marker but the
run before it. The runs need not be found before they are merged: one pass over the code that puts
each run behind the groups when it ends finds the same groups (`onePass_eq_correlate`).
-/

namespace BeamScope

/-! ### Merging -/

namespace SourceGroup

theorem push_ne_nil (gs : List SourceGroup) (g : SourceGroup) : push gs g ≠ [] := by
  unfold push
  split
  · simp
  · split <;> simp
  · simp

theorem push_cons {gs : List SourceGroup} (h : gs ≠ []) (a g : SourceGroup) :
    push (a :: gs) g = a :: push gs g := by
  obtain ⟨b, rest, rfl⟩ := List.exists_cons_of_ne_nil h
  rfl

/-- A group with the instructions of another behind its own. -/
def join (a b : SourceGroup) : SourceGroup :=
  { a with instructions := a.instructions ++ b.instructions }

theorem join_assoc (a b c : SourceGroup) : (a.join b).join c = a.join (b.join c) := by
  simp [join]

theorem push_join {last g : SourceGroup} (h : last.line = g.line) :
    push [last] g = [last.join g] := if_pos h

theorem push_apart {last g : SourceGroup} (h : last.line ≠ g.line) : push [last] g = [last, g] :=
  if_neg h

/-- Two groups of one line can be joined before they are pushed. -/
theorem push_push_of_line_eq (gs : List SourceGroup) {a b : SourceGroup} (h : a.line = b.line) :
    push (push gs a) b = push gs (a.join b) := by
  induction gs with
  | nil => exact push_join h
  | cons c gs ih =>
    cases gs with
    | nil =>
      by_cases hc : c.line = a.line
      · have hboth : (c.join a).line = b.line := hc.trans h
        have hjoined : c.line = (a.join b).line := hc
        rw [push_join hc, push_join hboth, push_join hjoined, join_assoc]
      · have hjoined : c.line ≠ (a.join b).line := hc
        rw [push_apart hc, push_cons (by simp), push_join h, push_apart hjoined]
    | cons d gs =>
      rw [push, push_cons (push_ne_nil _ _), ih]
      rfl

theorem merge_push (left right : List SourceGroup) (g : SourceGroup) :
    merge left (push right g) = push (merge left right) g := by
  induction right generalizing left with
  | nil => rfl
  | cons a right ih =>
    cases right with
    | nil =>
      by_cases hl : a.line = g.line
      · rw [push_join hl]
        exact (push_push_of_line_eq left hl).symm
      · rw [push_apart hl]
        rfl
    | cons b right => exact ih (push left a)

theorem merge_assoc (a b c : List SourceGroup) :
    merge (merge a b) c = merge a (merge b c) := by
  induction c generalizing b with
  | nil => rfl
  | cons g c ih =>
    have hstep : merge (merge a (push b g)) c = merge a (merge (push b g) c) := ih (push b g)
    rw [merge_push] at hstep
    exact hstep

theorem merge_append (a b c : List SourceGroup) : merge a (b ++ c) = merge (merge a b) c :=
  List.foldl_append

/-! ### Runs -/

/-- The groups of runs before any are joined. -/
def ofRuns (source : Option SourceText) (rs : List (Option Nat × List Instruction)) :
    List SourceGroup :=
  (rs.filter fun p => !p.2.isEmpty).map fun (line, run) => ofRun source line run

theorem ofRuns_append (source : Option SourceText) (rs rs' : List (Option Nat × List Instruction)) :
    ofRuns source (rs ++ rs') = ofRuns source rs ++ ofRuns source rs' := by
  simp [ofRuns]

theorem ofRuns_cons_nil (source : Option SourceText) (line : Option Nat)
    (rs : List (Option Nat × List Instruction)) :
    ofRuns source ((line, []) :: rs) = ofRuns source rs := rfl

/-- The first run has the line with which reading began. -/
theorem runs_eq_cons (lines : LineTable) (current : Option Nat)
    (code : List (RawInstruction × Instruction)) :
    ∃ run more, runs lines current code = (current, run) :: more := by
  induction code with
  | nil => exact ⟨[], [], rfl⟩
  | cons p code ih =>
    obtain ⟨raw, i⟩ := p
    cases hraw : raw.lineIndex? with
    | some index =>
      refine ⟨[], runs lines (some (lines.resolve index)) code, ?_⟩
      simp only [runs, hraw]
    | none =>
      obtain ⟨run, more, hruns⟩ := ih
      exact ⟨i :: run, more, by simp only [runs, hraw, hruns]⟩

/-- A line marker ends the run before it, and nothing else of what came before matters behind it. -/
theorem runs_append_marker (lines : LineTable) {raw : RawInstruction} {index : Nat}
    (h : raw.lineIndex? = some index) (i : Instruction) (current : Option Nat)
    (xs ys : List (RawInstruction × Instruction)) :
    runs lines current (xs ++ (raw, i) :: ys) =
      runs lines current xs ++ runs lines (some (lines.resolve index)) ys := by
  induction xs generalizing current with
  | nil => simp [runs, h]
  | cons p xs ih =>
    obtain ⟨raw', i'⟩ := p
    cases hl : raw'.lineIndex? with
    | some index' => simp [runs, hl, ih]
    | none =>
      obtain ⟨run, more, hruns⟩ := runs_eq_cons lines current xs
      simp [runs, hl, ih, hruns]

/-! ### One pass

The groups of a function are also found in one pass over its code: a run is collected up to the next
line marker and then put behind the groups that are there. -/

/-- Put a run behind groups, unless it is empty. -/
def flush (source : Option SourceText) (groups : List SourceGroup) (line : Option Nat)
    (run : List Instruction) : List SourceGroup :=
  if run.isEmpty then groups else push groups (ofRun source line run)

/-- What a pass has found: groups, and the run that it is in. -/
structure Pass where
  groups : List SourceGroup
  current : Option Nat
  run : List Instruction

def Pass.step (lines : LineTable) (source : Option SourceText) (s : Pass)
    (p : RawInstruction × Instruction) : Pass :=
  match p.1.lineIndex? with
  | some index => ⟨flush source s.groups s.current s.run, some (lines.resolve index), []⟩
  | none => { s with run := s.run ++ [p.2] }

def Pass.finish (source : Option SourceText) (s : Pass) : List SourceGroup :=
  flush source s.groups s.current s.run

def onePass (f : Function) (lines : LineTable) (source : Option SourceText) : List SourceGroup :=
  ((f.raw.zip f.instructions).foldl (Pass.step lines source) ⟨[], none, []⟩).finish source

/-- A run that has begun goes on with the first of the runs that follow. -/
def goOn (run : List Instruction) :
    List (Option Nat × List Instruction) → List (Option Nat × List Instruction)
  | [] => []
  | (line, rest) :: more => (line, run ++ rest) :: more

theorem merge_ofRuns_cons (source : Option SourceText) (groups : List SourceGroup)
    (line : Option Nat) (run : List Instruction) (rs : List (Option Nat × List Instruction)) :
    merge groups (ofRuns source ((line, run) :: rs)) =
      merge (flush source groups line run) (ofRuns source rs) := by
  cases run with
  | nil => rfl
  | cons i run => rfl

/-- From any point of the pass on, it finds what the runs from there on give. -/
theorem finish_foldl_step (lines : LineTable) (source : Option SourceText)
    (code : List (RawInstruction × Instruction)) (s : Pass) :
    (code.foldl (Pass.step lines source) s).finish source =
      merge s.groups (ofRuns source (goOn s.run (runs lines s.current code))) := by
  induction code generalizing s with
  | nil =>
    rw [List.foldl_nil, runs, goOn, List.append_nil, merge_ofRuns_cons]
    rfl
  | cons p code ih =>
    obtain ⟨raw, i⟩ := p
    rw [List.foldl_cons, ih]
    cases hraw : raw.lineIndex? with
    | some index =>
      obtain ⟨run, more, hruns⟩ := runs_eq_cons lines (some (lines.resolve index)) code
      simp only [Pass.step, runs, hraw, hruns, goOn, List.append_nil, List.nil_append]
      exact (merge_ofRuns_cons source s.groups s.current s.run _).symm
    | none =>
      obtain ⟨run, more, hruns⟩ := runs_eq_cons lines s.current code
      simp only [Pass.step, runs, hraw, hruns, goOn, List.append_assoc, List.singleton_append]

theorem onePass_eq_correlate (f : Function) (lines : LineTable) (source : Option SourceText) :
    onePass f lines source = correlate f lines source := by
  obtain ⟨run, more, hruns⟩ := runs_eq_cons lines none (f.raw.zip f.instructions)
  have hpass := finish_foldl_step lines source (f.raw.zip f.instructions) ⟨[], none, []⟩
  rw [hruns, goOn, List.nil_append, ← hruns] at hpass
  exact hpass

end SourceGroup

/-! ### Parts -/

/-- Whether code is empty or starts with a line marker. -/
def startsAtMarker (code : List RawInstruction) : Bool :=
  code.head?.all fun i => i.lineIndex?.isSome

namespace Function

def upTo (f : Function) (n : Nat) : Function :=
  { f with raw := f.raw.take n, instructions := f.instructions.take n }

def past (f : Function) (n : Nat) : Function :=
  { f with raw := f.raw.drop n, instructions := f.instructions.drop n }

/-- A function cut into parts: one of each of the given lengths, and the rest. -/
def parts (f : Function) : List Nat → List Function
  | [] => [f]
  | n :: ns => f.upTo n :: (f.past n).parts ns

theorem startsAtMarker_of_parts {f : Function} {ns : List Nat}
    (h : ∀ g ∈ f.parts ns, startsAtMarker g.raw = true) : startsAtMarker f.raw = true := by
  induction ns generalizing f with
  | nil => exact h f (by simp [parts])
  | cons n ns ih =>
    have hfirst : startsAtMarker (f.upTo n).raw = true := h _ (List.mem_cons_self ..)
    have hrest : startsAtMarker (f.past n).raw = true :=
      ih fun g hg => h g (List.mem_cons_of_mem _ hg)
    -- An empty part says nothing of how the code starts; then the next one does.
    cases n with
    | zero => exact hrest
    | succ n =>
      rw [upTo, startsAtMarker, List.head?_take, if_neg (Nat.succ_ne_zero n)] at hfirst
      exact hfirst

end Function

namespace SourceGroup

section Parts

variable (lines : LineTable) (source : Option SourceText)

theorem merge_ofRuns_append (xs : List (RawInstruction × Instruction))
    {ys : List (RawInstruction × Instruction)} (h : startsAtMarker (ys.map Prod.fst) = true) :
    merge [] (ofRuns source (runs lines none (xs ++ ys))) =
      merge (merge [] (ofRuns source (runs lines none xs)))
        (merge [] (ofRuns source (runs lines none ys))) := by
  cases ys with
  | nil =>
    rw [List.append_nil]
    rfl
  | cons p ys =>
    obtain ⟨raw, i⟩ := p
    obtain ⟨index, hindex⟩ := Option.isSome_iff_exists.mp h
    have hys : runs lines none ((raw, i) :: ys) =
        (none, []) :: runs lines (some (lines.resolve index)) ys :=
      runs_append_marker lines hindex i none [] ys
    rw [runs_append_marker lines hindex, ofRuns_append, merge_append, hys, ofRuns_cons_nil,
      ← merge_assoc]
    rfl

theorem correlate_upTo_past (f : Function) (n : Nat) (h : startsAtMarker (f.past n).raw = true) :
    correlate f lines source =
      merge (correlate (f.upTo n) lines source) (correlate (f.past n) lines source) := by
  have hzip : f.raw.zip f.instructions =
      (f.upTo n).raw.zip (f.upTo n).instructions ++
        (f.past n).raw.zip (f.past n).instructions := by
    simp only [Function.upTo, Function.past, List.zip, ← List.take_zipWith, ← List.drop_zipWith,
      List.take_append_drop]
  have hstart : startsAtMarker
      (((f.past n).raw.zip (f.past n).instructions).map Prod.fst) = true := by
    cases hraw : (f.past n).raw with
    | nil => rfl
    | cons raw rest =>
      cases (f.past n).instructions with
      | nil => rfl
      | cons i is =>
        rw [hraw] at h
        exact h
  have hmerge := merge_ofRuns_append lines source ((f.upTo n).raw.zip (f.upTo n).instructions)
    hstart
  rw [← hzip] at hmerge
  exact hmerge

theorem foldl_merge_parts (f : Function) (ns : List Nat)
    (h : ∀ g ∈ (f.parts ns).tail, startsAtMarker g.raw = true) (before : List SourceGroup) :
    ((f.parts ns).map fun g => correlate g lines source).foldl merge before =
      merge before (correlate f lines source) := by
  induction ns generalizing f before with
  | nil => rfl
  | cons n ns ih =>
    have hpast := Function.startsAtMarker_of_parts h
    have hrest := ih (f.past n) (fun g hg => h g (List.mem_of_mem_tail hg))
      (merge before (correlate (f.upTo n) lines source))
    rw [merge_assoc, ← correlate_upTo_past lines source f n hpast] at hrest
    exact hrest

/-- The groups of a function can be found part by part: cut before a line marker, its groups are
those of the two parts merged; and cut before any number of line markers, they are those of the
parts merged from the left. -/
theorem correlate_parts (f : Function) :
    (∀ xs ys, f.raw = xs ++ ys → startsAtMarker ys = true →
      correlate f lines source =
        merge
          (correlate { f with raw := xs, instructions := f.instructions.take xs.length } lines
            source)
          (correlate { f with raw := ys, instructions := f.instructions.drop xs.length } lines
            source)) ∧
    ∀ ns, (∀ g ∈ (f.parts ns).tail, startsAtMarker g.raw = true) →
      correlate f lines source =
        ((f.parts ns).map fun g => correlate g lines source).foldl merge [] := by
  constructor
  · intro xs ys hraw hys
    have hxs : f.raw.take xs.length = xs := by rw [hraw, List.take_left]
    have hpast : f.raw.drop xs.length = ys := by rw [hraw, List.drop_left]
    have hcut := correlate_upTo_past lines source f xs.length
    rw [Function.upTo, Function.past, hxs, hpast] at hcut
    exact hcut hys
  · intro ns hns
    -- Groups that are merged already stay as they are.
    have hmerged : merge [] (correlate f lines source) = correlate f lines source :=
      (merge_assoc [] [] _).symm
    rw [foldl_merge_parts lines source f ns hns, hmerged]

end Parts

-- Two line markers give the same line, and the cut between them falls inside a group.
theorem correlate_parts_same_line :
    let lines : LineTable := ⟨[0, 7, 7]⟩
    let source : Option SourceText := some ⟨[(7, "f() -> ok.")]⟩
    let code : List RawInstruction :=
      [⟨19, []⟩, ⟨153, [.unsigned 1]⟩, ⟨19, []⟩, ⟨153, [.unsigned 2]⟩, ⟨19, []⟩]
    let f := disassemble 60 lines ⟨"f", 0, 1, code⟩
    startsAtMarker (code.drop 3) = true ∧
      correlate f lines source =
        merge (correlate (f.upTo 3) lines source) (correlate (f.past 3) lines source) ∧
      (∀ g ∈ (f.parts [1, 2]).tail, startsAtMarker g.raw = true) ∧
      correlate f lines source =
        ((f.parts [1, 2]).map fun g => correlate g lines source).foldl merge [] ∧
      (correlate f lines source).map (fun g => (g.line, g.instructions.length, g.mode)) =
        [(none, 1, .unavailable), (some 7, 2, .inline)] := by
  intro lines source code f
  have hparts : ∀ g ∈ (f.parts [1, 2]).tail, startsAtMarker g.raw = true := by
    decide +kernel +zetaReduce
  obtain ⟨hcut, hall⟩ := correlate_parts lines source f
  refine ⟨rfl, hcut (code.take 3) (code.drop 3) rfl rfl, hparts, hall [1, 2] hparts, ?_⟩
  decide +kernel +zetaReduce

end SourceGroup

end BeamScope
