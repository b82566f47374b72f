import BeamScope.Proofs.CorrelateParts
import BeamScope.Proofs.ListingComplete

/-!
# Groups are the runs of one line

The groups of a function are its longest stretches of instructions from one line, but for line
markers. In force at an instruction is the last line marker before it that has an index, and nothing
else. `placed` keeps every instruction together with the line of its group, through pushing and
merging as through the scan, so the groups can be compared with the code instruction by instruction.
-/

namespace BeamScope

/-! ### Blank text -/

theorem Text.trim_eq_nil {cs : List Char} :
    Text.trim cs = [] ↔ ∀ c ∈ cs, Text.isBlank c = true := by
  rw [← List.dropWhile_eq_nil_iff]
  constructor
  · intro h
    cases hstart : cs.dropWhile Text.isBlank with
    | nil => rfl
    | cons c rest =>
      have hfirst : Text.isBlank c = false := by
        have := List.head?_dropWhile_not Text.isBlank cs
        rw [hstart] at this
        exact this
      simp only [Text.trim, Text.trimEnd, Text.trimStart, Text.dropEndWhile, hstart,
        List.reverse_eq_nil_iff, List.dropWhile_eq_nil_iff, List.mem_reverse] at h
      have hblank := h c (List.mem_cons_self ..)
      rw [hfirst] at hblank
      cases hblank
  · intro h
    simp [Text.trim, Text.trimStart, h, Text.trimEnd, Text.dropEndWhile]

namespace SourceGroup

/-- A text is loaded, and `s` is its line of that number and not blank throughout. -/
def HasText (source : Option SourceText) (line : Option Nat) (s : String) : Prop :=
  ∃ text n, source = some text ∧ line = some n ∧ text.get? n = some s ∧
    ∃ c ∈ s.toList, Text.isBlank c = false

theorem lineText?_eq_some {source : Option SourceText} {line : Option Nat} {s : String} :
    lineText? source line = some s ↔ HasText source line s := by
  have hblank : (Text.trim s.toList).isEmpty = false ↔
      ∃ c ∈ s.toList, Text.isBlank c = false := by
    rw [Bool.eq_false_iff, ne_eq, List.isEmpty_iff, Text.trim_eq_nil]
    simp
  cases source with
  | none => simp [lineText?, HasText]
  | some text =>
    cases line with
    | none => simp [lineText?, HasText]
    | some n => simp [lineText?, HasText, Option.filter_eq_some_iff, hblank]

/-- A group is shown as its line allows: with the text, or without any. -/
def Titled (source : Option SourceText) (g : SourceGroup) : Prop :=
  g.source = lineText? source g.line ∧
    g.mode = if (lineText? source g.line).isSome then .inline else .unavailable

theorem titled_ofRun (source : Option SourceText) (line : Option Nat) (run : List Instruction) :
    Titled source (ofRun source line run) := by
  unfold ofRun
  split
  next s hs => simp [Titled, hs]
  next hs => simp [Titled, hs]

theorem Titled.inline_iff {source : Option SourceText} {g : SourceGroup} (h : Titled source g)
    (s : String) : g.mode = .inline ∧ g.source = some s ↔ HasText source g.line s := by
  rw [h.1, h.2, ← lineText?_eq_some]
  constructor
  · intro hs
    exact hs.2
  · intro hs
    simp [hs]

theorem Titled.unavailable {source : Option SourceText} {g : SourceGroup} (h : Titled source g)
    (hnone : ∀ s, ¬HasText source g.line s) : g.mode = .unavailable ∧ g.source = none := by
  have htext : lineText? source g.line = none := by
    rw [Option.eq_none_iff_forall_ne_some]
    intro s hs
    exact hnone s (lineText?_eq_some.mp hs)
  rw [h.1, h.2, htext]
  exact ⟨rfl, rfl⟩

/-! ### What pushing keeps -/

/-- What holds of each group, and does not change when instructions are added, holds of all groups
after a push. -/
theorem forall_push {P : SourceGroup → Prop} (hjoin : ∀ a b, P a → P (a.join b))
    {gs : List SourceGroup} {g : SourceGroup} (hgs : ∀ a ∈ gs, P a) (hg : P g) :
    ∀ a ∈ push gs g, P a := by
  fun_induction push gs g with
  | case1 g => simpa using hg
  | case2 last g hline =>
    intro a ha
    rw [List.mem_singleton.mp ha]
    exact hjoin last g (hgs last (List.mem_singleton_self _))
  | case3 last g hline =>
    intro a ha
    rcases List.mem_cons.mp ha with rfl | ha
    · exact hgs a (List.mem_singleton_self _)
    · rw [List.mem_singleton.mp ha]
      exact hg
  | case4 a b rest g ih =>
    intro c hc
    rcases List.mem_cons.mp hc with rfl | hc
    · exact hgs c (List.mem_cons_self ..)
    · exact ih (fun d hd => hgs d (List.mem_cons_of_mem _ hd)) hg c hc

theorem forall_merge {P : SourceGroup → Prop} (hjoin : ∀ a b, P a → P (a.join b))
    {left right : List SourceGroup} (hleft : ∀ a ∈ left, P a) (hright : ∀ a ∈ right, P a) :
    ∀ a ∈ merge left right, P a := by
  induction right generalizing left with
  | nil => exact hleft
  | cons g right ih =>
    have hg := hright g (List.mem_cons_self ..)
    exact ih (forall_push hjoin hleft hg) fun a ha => hright a (List.mem_cons_of_mem _ ha)

theorem length_push_le (gs : List SourceGroup) (g : SourceGroup) :
    (push gs g).length ≤ gs.length + 1 := by
  fun_induction push gs g with
  | case1 g => exact Nat.le_refl 1
  | case2 last g hline => exact Nat.le_succ 1
  | case3 last g hline => exact Nat.le_refl 2
  | case4 a b rest g ih => exact Nat.succ_le_succ ih

theorem length_merge_le (left right : List SourceGroup) :
    (merge left right).length ≤ left.length + right.length := by
  induction right generalizing left with
  | nil => exact Nat.le_refl _
  | cons g right ih =>
    have hrest := ih (push left g)
    have hpush := length_push_le left g
    have hfold : merge left (g :: right) = merge (push left g) right := rfl
    rw [hfold, List.length_cons]
    omega

def LinesChange (gs : List SourceGroup) : Prop := gs.IsChain fun a b => a.line ≠ b.line

theorem push_eq_cons (a : SourceGroup) (gs : List SourceGroup) (g : SourceGroup) :
    ∃ a' gs', push (a :: gs) g = a' :: gs' ∧ a'.line = a.line := by
  cases gs with
  | nil =>
    by_cases hline : a.line = g.line
    · exact ⟨_, _, push_join hline, rfl⟩
    · exact ⟨_, _, push_apart hline, rfl⟩
  | cons b gs => exact ⟨_, _, rfl, rfl⟩

theorem LinesChange.push {gs : List SourceGroup} (h : LinesChange gs) (g : SourceGroup) :
    LinesChange (push gs g) := by
  unfold LinesChange at h ⊢
  fun_induction SourceGroup.push gs g with
  | case1 g => exact .singleton g
  | case2 last g hline => exact .singleton _
  | case3 last g hline => exact .cons_cons hline (.singleton g)
  | case4 a b rest g ih =>
    obtain ⟨hab, hrest⟩ := List.isChain_cons_cons.mp h
    obtain ⟨b', rest', hpush, hline⟩ := push_eq_cons b rest g
    have hchain := ih hrest
    rw [hpush] at hchain ⊢
    exact .cons_cons (hline ▸ hab) hchain

theorem LinesChange.merge {left : List SourceGroup} (h : LinesChange left)
    (right : List SourceGroup) : LinesChange (merge left right) := by
  induction right generalizing left with
  | nil => exact h
  | cons g right ih => exact ih (h.push g)

/-! ### Where an instruction is placed -/

/-- The instructions of groups, each with the line of its group. -/
def placed (gs : List SourceGroup) : List (Option Nat × Instruction) :=
  gs.flatMap fun g => g.instructions.map fun i => (g.line, i)

theorem placed_push (gs : List SourceGroup) (g : SourceGroup) :
    placed (push gs g) = placed gs ++ placed [g] := by
  fun_induction push gs g with
  | case1 g => rfl
  | case2 last g hline => simp [placed, hline]
  | case3 last g hline => simp [placed]
  | case4 a b rest g ih =>
    simp only [placed, List.flatMap_cons, List.append_assoc] at ih ⊢
    rw [ih]

theorem placed_merge (left right : List SourceGroup) :
    placed (merge left right) = placed left ++ placed right := by
  induction right generalizing left with
  | nil => simp [merge, placed]
  | cons g right ih =>
    have hrest := ih (push left g)
    rw [placed_push, List.append_assoc] at hrest
    rw [show placed (g :: right) = placed [g] ++ placed right by simp [placed]]
    exact hrest

/-- Merging is associative on any groups, also where neighbours have one line already or hold no
instructions, and it keeps every instruction, in order and on its line. -/
theorem merge_assoc_and_keeps (a b c : List SourceGroup) :
    merge (merge a b) c = merge a (merge b c) ∧
      shown (merge a b) = shown a ++ shown b ∧
      placed (merge a b) = placed a ++ placed b :=
  ⟨merge_assoc a b c, shown_merge a b, placed_merge a b⟩

-- Neighbours of one line are joined on the right, and stay apart on the left.
example :
    let g : SourceGroup := ⟨some 7, none, [⟨.ret, "return", []⟩], .unavailable⟩
    merge [g, g] [] = [g, g] ∧ merge [] [g, g] = [g.join g] ∧
      merge [g, g] [g, g] = [g, (g.join g).join g] := by
  decide +kernel

def placedRuns (rs : List (Option Nat × List Instruction)) : List (Option Nat × Instruction) :=
  rs.flatMap fun p => p.2.map fun i => (p.1, i)

theorem line_ofRun (source : Option SourceText) (line : Option Nat) (run : List Instruction) :
    (ofRun source line run).line = line := by
  unfold ofRun
  split <;> rfl

theorem placed_ofRuns (source : Option SourceText) (rs : List (Option Nat × List Instruction)) :
    placed (ofRuns source rs) = placedRuns rs := by
  induction rs with
  | nil => rfl
  | cons p rs ih =>
    obtain ⟨line, run⟩ := p
    cases run with
    | nil => exact ih
    | cons i run =>
      have hcons : ofRuns source ((line, i :: run) :: rs) =
          ofRun source line (i :: run) :: ofRuns source rs := rfl
      simp only [placed, placedRuns, List.flatMap_cons, hcons, instructions_ofRun,
        line_ofRun] at ih ⊢
      rw [ih]

/-- The line in force behind code: that of its last line marker with an index. -/
def lineBehind (lines : LineTable) (code : List RawInstruction) : Option Nat :=
  (code.filterMap RawInstruction.lineIndex?).getLast?.map lines.resolve

section Runs

variable (lines : LineTable)

theorem placedRuns_marker {raw : RawInstruction} {index : Nat}
    (h : raw.lineIndex? = some index) (i : Instruction) (current : Option Nat)
    (code : List (RawInstruction × Instruction)) :
    placedRuns (runs lines current ((raw, i) :: code)) =
      placedRuns (runs lines (some (lines.resolve index)) code) := by
  simp only [runs, h, placedRuns, List.flatMap_cons, List.map_nil, List.nil_append]

theorem placedRuns_shown {raw : RawInstruction} (h : raw.lineIndex? = none) (i : Instruction)
    (current : Option Nat) (code : List (RawInstruction × Instruction)) :
    placedRuns (runs lines current ((raw, i) :: code)) =
      (current, i) :: placedRuns (runs lines current code) := by
  obtain ⟨run, more, hruns⟩ := runs_eq_cons lines current code
  simp only [runs, h, hruns, placedRuns, List.flatMap_cons, List.map_cons, List.cons_append]

/-- Of the code before an instruction, the scan carries on the line of the last marker only. -/
theorem placedRuns_append (current : Option Nat) (xs ys : List (RawInstruction × Instruction)) :
    placedRuns (runs lines current (xs ++ ys)) =
      placedRuns (runs lines current xs) ++
        placedRuns (runs lines ((lineBehind lines (xs.map Prod.fst)).or current) ys) := by
  induction xs generalizing current with
  | nil => rfl
  | cons p xs ih =>
    obtain ⟨raw, i⟩ := p
    cases hraw : raw.lineIndex? with
    | some index =>
      have hline : (lineBehind lines (raw :: xs.map Prod.fst)).or current =
          (lineBehind lines (xs.map Prod.fst)).or (some (lines.resolve index)) := by
        simp only [lineBehind, List.filterMap_cons, hraw, List.getLast?_cons]
        cases (List.filterMap RawInstruction.lineIndex? (xs.map Prod.fst)).getLast? <;> rfl
      rw [List.cons_append, placedRuns_marker lines hraw, placedRuns_marker lines hraw, ih,
        List.map_cons, hline]
    | none =>
      have hline :
          lineBehind lines (raw :: xs.map Prod.fst) = lineBehind lines (xs.map Prod.fst) := by
        simp only [lineBehind, List.filterMap_cons, hraw]
      rw [List.cons_append, placedRuns_shown lines hraw, placedRuns_shown lines hraw, ih,
        List.map_cons, hline, List.cons_append]

theorem length_placedRuns (current : Option Nat) (code : List (RawInstruction × Instruction)) :
    (placedRuns (runs lines current code)).length =
      (code.filter fun p => p.1.lineIndex?.isNone).length := by
  have hflat := congrArg List.length (flatMap_runs lines current code)
  rw [List.length_map] at hflat
  rw [← hflat]
  simp [placedRuns, List.length_flatMap]

theorem length_runs (current : Option Nat) (code : List (RawInstruction × Instruction)) :
    (runs lines current code).length = code.countP (fun p => p.1.lineIndex?.isSome) + 1 := by
  induction code generalizing current with
  | nil => rfl
  | cons p code ih =>
    obtain ⟨raw, i⟩ := p
    cases hraw : raw.lineIndex? with
    | some index => simp [runs, hraw, ih]
    | none =>
      obtain ⟨run, more, hruns⟩ := runs_eq_cons lines current code
      have hlen := ih current
      rw [hruns] at hlen
      simpa [runs, hraw, hruns] using hlen

end Runs

/-! ### The groups of a function -/

theorem mem_ofRuns {source : Option SourceText} {rs : List (Option Nat × List Instruction)}
    {g : SourceGroup} (h : g ∈ ofRuns source rs) :
    ∃ line run, run ≠ [] ∧ g = ofRun source line run := by
  obtain ⟨⟨line, run⟩, hrun, rfl⟩ := List.mem_map.mp h
  have hne := (List.mem_filter.mp hrun).2
  exact ⟨line, run, by simpa using hne, rfl⟩

def formatted (width : Nat) (code : List RawInstruction) : List (RawInstruction × Instruction) :=
  code.map fun i => (i, Format.instruction width i)

theorem map_fst_formatted (width : Nat) (code : List RawInstruction) :
    (formatted width code).map Prod.fst = code := by
  simp [formatted, Function.comp_def]

def groupsOf (width : Nat) (lines : LineTable) (source : Option SourceText)
    (code : List RawInstruction) : List SourceGroup :=
  merge [] (ofRuns source (runs lines none (formatted width code)))

theorem correlate_disassemble (width : Nat) (lines resolved : LineTable)
    (source : Option SourceText) (f : RawFunction) :
    correlate (disassemble width resolved f) lines source =
      groupsOf width lines source f.code := by
  simp only [correlate, disassemble, ← List.map_prod_left_eq_zip]
  rfl

section Groups

variable (width : Nat) (lines : LineTable) (source : Option SourceText)
  (code : List RawInstruction)

theorem shown_groupsOf : shown (groupsOf width lines source code) =
    (code.filter fun i => i.lineIndex?.isNone).map (Format.instruction width) := by
  rw [groupsOf, shown_merge, ofRuns, shown_map_ofRun, flatMap_runs, formatted, List.filter_map,
    List.map_map]
  rfl

theorem nonempty_groupsOf : ∀ g ∈ groupsOf width lines source code, g.instructions ≠ [] := by
  refine forall_merge ?_ (by simp) ?_
  · intro a b ha hjoin
    exact ha (List.append_eq_nil_iff.mp hjoin).1
  · intro g hg
    obtain ⟨line, run, hne, rfl⟩ := mem_ofRuns hg
    rw [instructions_ofRun]
    exact hne

theorem titled_groupsOf : ∀ g ∈ groupsOf width lines source code, Titled source g := by
  refine forall_merge ?_ (by simp) ?_
  · intro a b ha
    exact ha
  · intro g hg
    obtain ⟨line, run, -, rfl⟩ := mem_ofRuns hg
    exact titled_ofRun source line run

theorem length_groupsOf_le :
    (groupsOf width lines source code).length ≤
      code.countP (fun i => i.lineIndex?.isSome) + 1 := by
  have hmerge := length_merge_le [] (ofRuns source (runs lines none (formatted width code)))
  have hofRuns : (ofRuns source (runs lines none (formatted width code))).length ≤
      (runs lines none (formatted width code)).length := by
    rw [ofRuns, List.length_map]
    exact List.length_filter_le _ _
  rw [length_runs, formatted, List.countP_map] at hofRuns
  rw [List.length_nil, Nat.zero_add] at hmerge
  exact Nat.le_trans hmerge hofRuns

theorem placed_groupsOf {before after : List RawInstruction} {i : RawInstruction}
    (hi : i.lineIndex? = none) :
    (placed (groupsOf width lines source (before ++ i :: after)))[
        (before.filter fun i => i.lineIndex?.isNone).length]? =
      some (lineBehind lines before, Format.instruction width i) := by
  have hlen : (placedRuns (runs lines none (formatted width before))).length =
      (before.filter fun i => i.lineIndex?.isNone).length := by
    rw [length_placedRuns, formatted, List.filter_map, List.length_map]
    rfl
  have hsplit : formatted width (before ++ i :: after) =
      formatted width before ++ (i, Format.instruction width i) :: formatted width after := by
    simp [formatted]
  rw [groupsOf, placed_merge, placed_ofRuns, hsplit, placedRuns_append, map_fst_formatted,
    placedRuns_shown lines hi, ← hlen, Option.or_none]
  simp [placed]

end Groups

/-- The groups of code are its runs of one line, as long as can be, each shown with its text if
there is one. -/
structure RunsOf (width : Nat) (lines : LineTable) (source : Option SourceText)
    (code : List RawInstruction) (gs : List SourceGroup) : Prop where
  /-- All instructions but line markers, in order. -/
  shown_eq : shown gs =
    (code.filter fun i => i.lineIndex?.isNone).map (Format.instruction width)
  nonempty : ∀ g ∈ gs, g.instructions ≠ []
  lines_change : gs.IsChain fun a b => a.line ≠ b.line
  /-- An instruction is in a group of the line that the last marker before it gives. -/
  line_eq : ∀ before i after, code = before ++ i :: after → i.lineIndex? = none →
    (placed gs)[(before.filter fun i => i.lineIndex?.isNone).length]? =
      some (lineBehind lines before, Format.instruction width i)
  length_le : gs.length ≤ code.countP (fun i => i.lineIndex?.isSome) + 1
  inline_iff : ∀ g ∈ gs, ∀ s, g.mode = .inline ∧ g.source = some s ↔ HasText source g.line s
  unavailable : ∀ g ∈ gs, (∀ s, ¬HasText source g.line s) →
    g.mode = .unavailable ∧ g.source = none

/-- The groups of a disassembled function are its runs of one line, whatever lines its markers were
resolved to when it was disassembled. -/
theorem correlate_maximal_runs (width : Nat) (lines resolved : LineTable)
    (source : Option SourceText) (f : RawFunction) :
    RunsOf width lines source f.code
      (correlate (disassemble width resolved f) lines source) := by
  rw [correlate_disassemble]
  exact
    { shown_eq := shown_groupsOf width lines source f.code
      nonempty := nonempty_groupsOf width lines source f.code
      lines_change := LinesChange.merge .nil _
      line_eq := by
        intro before i after hcode hi
        rw [hcode]
        exact placed_groupsOf width lines source hi
      length_le := length_groupsOf_le width lines source f.code
      inline_iff := fun g hg s => (titled_groupsOf width lines source f.code g hg).inline_iff s
      unavailable := fun g hg hnone =>
        (titled_groupsOf width lines source f.code g hg).unavailable hnone }

-- The marker of line 8 has no instructions behind it, so line 7 goes on as if it were not there.
example :
    (correlate (disassemble 60 .empty
      ⟨"f", 0, 1, [⟨153, [.unsigned 7]⟩, ⟨19, []⟩, ⟨153, [.unsigned 8]⟩, ⟨153, [.unsigned 7]⟩,
        ⟨19, []⟩]⟩) .empty none).map (fun g => (g.line, g.instructions.length)) =
      [(some 7, 2)] := by
  decide +kernel

end SourceGroup

end BeamScope
