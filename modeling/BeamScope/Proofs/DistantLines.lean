import Mathlib.Data.List.Forall2
import BeamScope.Proofs.LineRuns
import BeamScope.Proofs.LineTableExact

/-!
# Which groups are references to lines elsewhere

The groups of a function are found from its own code; a second pass over all functions then turns
some of them into references. It changes nothing but the mode, and only of groups with text: these
stay as they are if their line is near the anchor of the function, and become references if not.
What is near depends on the options. Without a window, lines are near up to the first greater anchor
behind the function. With a window they are near as far as it reaches, apart from the greatest
number of 32 bits, which is never reached because the end of the window stops there.
-/

namespace BeamScope

namespace RawInstruction

theorem lineIndex?_lt {i : RawInstruction} {index : Nat} (h : i.lineIndex? = some index) :
    index < 2 ^ 32 := by
  unfold lineIndex? at h
  split at h
  · obtain ⟨o, -, ho⟩ := Option.bind_eq_some_iff.mp h
    have hfits := (Option.filter_eq_some_iff.mp ho).2
    simpa [isUInt32] using hfits
  · cases h

end RawInstruction

namespace LineTable

theorem resolve_lt {lines : LineTable} (hlines : ∀ n ∈ lines.lines, n < 2 ^ 32) {index : Nat}
    (hindex : index < 2 ^ 32) : lines.resolve index < 2 ^ 32 := by
  unfold resolve get?
  cases hget : lines.lines[index]? with
  | none => exact hindex
  | some n => exact hlines n (List.mem_of_getElem? hget)

end LineTable

namespace SourceGroup

/-! ### Lines of groups -/

/-- A line marker in the code has the line. -/
def MarkedLine (lines : LineTable) (code : List RawInstruction) (n : Nat) : Prop :=
  ∃ i ∈ code, ∃ index, i.lineIndex? = some index ∧ lines.resolve index = n

theorem MarkedLine.tail {lines : LineTable} {i : RawInstruction} {code : List RawInstruction}
    {n : Nat} (h : MarkedLine lines code n) : MarkedLine lines (i :: code) n := by
  obtain ⟨j, hj, hline⟩ := h
  exact ⟨j, List.mem_cons_of_mem _ hj, hline⟩

theorem MarkedLine.lt {lines : LineTable} (hlines : ∀ n ∈ lines.lines, n < 2 ^ 32)
    {code : List RawInstruction} {n : Nat} (h : MarkedLine lines code n) : n < 2 ^ 32 := by
  obtain ⟨i, -, index, hindex, rfl⟩ := h
  exact LineTable.resolve_lt hlines (RawInstruction.lineIndex?_lt hindex)

theorem markedLine_of_mem_runs {lines : LineTable} {current : Option Nat}
    {code : List (RawInstruction × Instruction)} {p : Option Nat × List Instruction}
    (h : p ∈ runs lines current code) :
    p.1 = current ∨ ∃ n, p.1 = some n ∧ MarkedLine lines (code.map Prod.fst) n := by
  induction code generalizing current p with
  | nil =>
    rw [runs, List.mem_singleton] at h
    exact .inl (congrArg Prod.fst h)
  | cons q code ih =>
    obtain ⟨raw, i⟩ := q
    cases hraw : raw.lineIndex? with
    | some index =>
      simp only [runs, hraw, List.mem_cons] at h
      rcases h with rfl | h
      · exact .inl rfl
      · right
        rcases ih h with hline | ⟨n, hline, hn⟩
        · exact ⟨_, hline, raw, List.mem_cons_self .., index, hraw, rfl⟩
        · exact ⟨n, hline, hn.tail⟩
    | none =>
      obtain ⟨run, more, hruns⟩ := runs_eq_cons lines current code
      simp only [runs, hraw, hruns, List.mem_cons] at h
      rcases h with rfl | h
      · exact .inl rfl
      · have hmem : p ∈ runs lines current code := hruns ▸ List.mem_cons_of_mem _ h
        rcases ih hmem with hline | ⟨n, hline, hn⟩
        · exact .inl hline
        · exact .inr ⟨n, hline, hn.tail⟩

theorem markedLine_groupsOf (width : Nat) (lines : LineTable) (source : Option SourceText)
    (code : List RawInstruction) :
    ∀ g ∈ groupsOf width lines source code, ∀ n, g.line = some n → MarkedLine lines code n := by
  refine forall_merge ?_ (by simp) ?_
  · intro a b ha
    exact ha
  · intro g hg n hn
    obtain ⟨⟨line, run⟩, hrun, rfl⟩ := List.mem_map.mp hg
    have hline : line = some n := (line_ofRun source line run).symm.trans hn
    subst hline
    rcases markedLine_of_mem_runs (List.mem_filter.mp hrun).1 with hnone | ⟨m, hm, hmarked⟩
    · cases hnone
    · cases hm
      rwa [map_fst_formatted] at hmarked

/-- The line of the first line marker in the code. -/
def firstLine (lines : LineTable) (code : List RawInstruction) : Option Nat :=
  (code.filterMap RawInstruction.lineIndex?).head?.map lines.resolve

theorem MarkedLine.firstLine_eq_some {lines : LineTable} {code : List RawInstruction} {n : Nat}
    (h : MarkedLine lines code n) : ∃ a, firstLine lines code = some a := by
  obtain ⟨i, hi, index, hindex, -⟩ := h
  have hmem : index ∈ code.filterMap RawInstruction.lineIndex? :=
    List.mem_filterMap.mpr ⟨i, hi, hindex⟩
  unfold firstLine
  cases hcode : code.filterMap RawInstruction.lineIndex? with
  | nil =>
    rw [hcode] at hmem
    cases hmem
  | cons first rest => exact ⟨lines.resolve first, rfl⟩

/-! ### One group -/

/-- How a group that was found in the code of a function is shown. It keeps its line, text and
instructions. Without text it is unavailable; with text it is shown where it stands if its line is
near the anchor of the function, and as a reference if not. -/
structure Decided (source : Option SourceText) (anchor : Option Nat) (Near : Nat → Nat → Prop)
    (found shown : SourceGroup) : Prop where
  line_eq : shown.line = found.line
  source_eq : shown.source = found.source
  instructions_eq : shown.instructions = found.instructions
  source_iff : ∀ s, shown.source = some s ↔ HasText source shown.line s
  unavailable_iff : shown.mode = .unavailable ↔ shown.source = none
  near : ∀ s, shown.source = some s → ∃ a n, anchor = some a ∧ shown.line = some n ∧
    (shown.mode = .inline ↔ Near a n) ∧ (shown.mode = .distant ↔ ¬Near a n)

section Mark

variable {source : Option SourceText} {g : SourceGroup}

theorem Titled.source_eq_some (h : Titled source g) {s : String} :
    g.source = some s ↔ HasText source g.line s := by
  rw [h.1, lineText?_eq_some]

theorem Titled.mode_of_some (h : Titled source g) {s : String} (hs : g.source = some s) :
    g.mode = .inline := by
  rw [h.2, ← h.1, hs]
  rfl

theorem Titled.mode_of_none (h : Titled source g) (hnone : g.source = none) :
    g.mode = .unavailable := by
  rw [h.2, ← h.1, hnone]
  rfl

theorem markDistant_of_not_inline (start : Nat) (stop : Option Nat) (h : g.mode ≠ .inline) :
    markDistant start stop g = g := by
  unfold markDistant
  split
  · rfl
  · exact if_neg fun hboth => h hboth.1

theorem markDistant_of_near {start n : Nat} {stop : Option Nat} (hline : g.line = some n)
    (h : isNear start stop n = true) : markDistant start stop g = g := by
  simp [markDistant, hline, h]

theorem markDistant_of_not_near {start n : Nat} {stop : Option Nat} (hline : g.line = some n)
    (hmode : g.mode = .inline) (h : ¬isNear start stop n = true) :
    markDistant start stop g = { g with mode := .distant } := by
  simp [markDistant, hline, hmode, h]

theorem decided_of_none (h : Titled source g) (hnone : g.source = none) (anchor : Option Nat)
    (Near : Nat → Nat → Prop) : Decided source anchor Near g g := by
  refine ⟨rfl, rfl, rfl, fun s => h.source_eq_some, ?_, ?_⟩
  · simp [hnone, h.mode_of_none hnone]
  · intro s hs
    rw [hnone] at hs
    cases hs

theorem decided_markDistant (h : Titled source g) {Near : Nat → Nat → Prop} {start : Nat}
    {stop : Option Nat}
    (hnear : ∀ n, g.line = some n → (isNear start stop n = true ↔ Near start n)) :
    Decided source (some start) Near g (markDistant start stop g) := by
  cases hsource : g.source with
  | none =>
    have hmode : g.mode ≠ .inline := by simp [h.mode_of_none hsource]
    rw [markDistant_of_not_inline start stop hmode]
    exact decided_of_none h hsource _ _
  | some s =>
    have hmode := h.mode_of_some hsource
    obtain ⟨-, n, -, hline, -⟩ := h.source_eq_some.mp hsource
    have hiff := hnear n hline
    by_cases hn : isNear start stop n = true
    · rw [markDistant_of_near hline hn]
      refine ⟨rfl, rfl, rfl, fun s => h.source_eq_some, by simp [hmode, hsource], ?_⟩
      intro _ _
      exact ⟨start, n, rfl, hline, by simp [hmode, ← hiff, hn], by simp [hmode, ← hiff, hn]⟩
    · rw [markDistant_of_not_near hline hmode hn]
      refine ⟨rfl, rfl, rfl, fun s => h.source_eq_some, by simp [hsource], ?_⟩
      intro _ _
      exact ⟨start, n, rfl, hline, by simp [← hiff, hn], by simp [← hiff, hn]⟩

end Mark

end SourceGroup

namespace Analysis

open SourceGroup

/-! ### All functions -/

theorem anchor?_eq_firstLine (lines : LineTable) (f : RawFunction) :
    anchor? lines f = firstLine lines f.code := by
  rw [anchor?, firstLine, List.head?_filterMap]

/-- A listing whose groups have been marked, given the anchors behind it. -/
def marked (window : Option Nat) (later : List (Option Nat)) (l : FunctionListing) :
    FunctionListing :=
  match l.anchor with
  | none => l
  | some a => { l with groups := l.groups.map (markDistant a (rangeEnd window a later)) }

theorem markAll_cons (window : Option Nat) (l : FunctionListing) (rest : List FunctionListing) :
    markAll window (l :: rest) =
      marked window (rest.map FunctionListing.anchor) l :: markAll window rest := rfl

theorem length_markAll (window : Option Nat) (ls : List FunctionListing) :
    (markAll window ls).length = ls.length := by
  induction ls with
  | nil => rfl
  | cons l rest ih => rw [markAll_cons, List.length_cons, ih, List.length_cons]

theorem getElem?_markAll (window : Option Nat) (before after : List FunctionListing)
    (l : FunctionListing) :
    (markAll window (before ++ l :: after))[before.length]? =
      some (marked window (after.map FunctionListing.anchor) l) := by
  induction before with
  | nil => rfl
  | cons k before ih =>
    rw [List.cons_append, markAll_cons, List.length_cons, List.getElem?_cons_succ, ih]

/-- How a listing shows a function. -/
structure Lists (width : Nat) (lines : LineTable) (source : Option SourceText) (f : RawFunction)
    (Near : Nat → Nat → Prop) (l : FunctionListing) : Prop where
  anchor_eq : l.anchor = firstLine lines f.code
  groups : List.Forall₂ (Decided source l.anchor Near)
    (correlate (disassemble width lines f) lines source) l.groups

section Lists

variable {width : Nat} {lines : LineTable} {source : Option SourceText} {f : RawFunction}

theorem lists_marked {window : Option Nat} {later : List (Option Nat)} {Near : Nat → Nat → Prop}
    (hnear : ∀ a n, MarkedLine lines f.code n →
      (isNear a (rangeEnd window a later) n = true ↔ Near a n)) :
    Lists width lines source f Near (marked window later (listing width lines source f)) := by
  have hanchor : (listing width lines source f).anchor = firstLine lines f.code :=
    anchor?_eq_firstLine lines f
  have hgroups : (listing width lines source f).groups = groupsOf width lines source f.code :=
    correlate_disassemble width lines lines source f
  have htitled := titled_groupsOf width lines source f.code
  have hline := markedLine_groupsOf width lines source f.code
  cases ha : firstLine lines f.code with
  | none =>
    -- Without an anchor no group has a line, so none has text.
    rw [ha] at hanchor
    simp only [marked, hanchor]
    refine ⟨by rw [hanchor, ha], ?_⟩
    rw [correlate_disassemble, hgroups, List.forall₂_same]
    intro g hg
    have hsource : g.source = none := by
      rw [Option.eq_none_iff_forall_ne_some]
      intro s hs
      obtain ⟨-, n, -, hn, -⟩ := (htitled g hg).source_eq_some.mp hs
      obtain ⟨a, hsome⟩ := (hline g hg n hn).firstLine_eq_some
      rw [ha] at hsome
      cases hsome
    exact decided_of_none (htitled g hg) hsource _ _
  | some a =>
    rw [ha] at hanchor
    simp only [marked, hanchor]
    refine ⟨by rw [ha], ?_⟩
    rw [correlate_disassemble, hgroups, List.forall₂_map_right_iff, List.forall₂_same]
    intro g hg
    exact decided_markDistant (htitled g hg) fun n hn => hnear a n (hline g hg n hn)

theorem Lists.decided {Near : Nat → Nat → Prop} {l : FunctionListing}
    (h : Lists width lines source f Near l) {g : SourceGroup} (hg : g ∈ l.groups) :
    ∃ found, Decided source l.anchor Near found g := by
  obtain ⟨k, hk, rfl⟩ := List.getElem_of_mem hg
  exact ⟨_, h.groups.get (h.groups.length_eq ▸ hk) hk⟩

end Lists

theorem lists_ofFunctions (width : Nat) {lines : LineTable} (source : Option SourceText)
    (window : Option Nat) (module : String) (exports : List String)
    (before after : List RawFunction) {f : RawFunction} {Near : Nat → Nat → Prop}
    (hnear : ∀ a n, MarkedLine lines f.code n →
      (isNear a (rangeEnd window a (after.map fun g => firstLine lines g.code)) n = true ↔
        Near a n)) :
    ∃ l, (ofFunctions ⟨width, window⟩ module exports (before ++ f :: after) lines
        source).value.functions[before.length]? = some l ∧ Lists width lines source f Near l := by
  have hlater : (after.map (listing width lines source)).map FunctionListing.anchor =
      after.map fun g => firstLine lines g.code := by
    rw [List.map_map]
    exact List.map_congr_left fun g _ => anchor?_eq_firstLine lines g
  have hget := getElem?_markAll window (before.map (listing width lines source))
    (after.map (listing width lines source)) (listing width lines source f)
  rw [List.length_map, hlater] at hget
  refine ⟨_, ?_, lists_marked hnear⟩
  simp only [ofFunctions, List.map_append, List.map_cons]
  exact hget

/-! ### Ranges -/

/-- `e` is greater than `a`, and no anchor before it is. -/
def FirstGreater (a : Nat) (anchors : List (Option Nat)) (e : Nat) : Prop :=
  ∃ front back, anchors = front ++ some e :: back ∧ a < e ∧ ∀ b, some b ∈ front → b ≤ a

/-- A line of the function at anchor `a`: not before it, and before the first greater anchor of
those behind it, if there is one. -/
def InRange (later : List (Option Nat)) (a n : Nat) : Prop :=
  a ≤ n ∧ ∀ e, FirstGreater a later e → n < e

theorem rangeEnd_eq_some {a e : Nat} {later : List (Option Nat)} :
    rangeEnd none a later = some e ↔ FirstGreater a later e := by
  unfold rangeEnd FirstGreater
  rw [List.findSome?_eq_some_iff]
  constructor
  · rintro ⟨front, b, back, hsplit, hb, hfront⟩
    obtain ⟨rfl, he⟩ := Option.filter_eq_some_iff.mp hb
    refine ⟨front, back, hsplit, by simpa using he, ?_⟩
    intro b hb
    simpa using hfront (some b) hb
  · rintro ⟨front, back, hsplit, he, hfront⟩
    refine ⟨front, some e, back, hsplit, by simp [he], ?_⟩
    intro b hb
    cases b with
    | none => rfl
    | some b => simpa using hfront b hb

theorem isNear_iff {start n : Nat} {stop : Option Nat} :
    isNear start stop n = true ↔ start ≤ n ∧ ∀ e, stop = some e → n < e := by
  cases stop <;> simp [isNear]

theorem isNear_rangeEnd_none {later : List (Option Nat)} {a n : Nat} :
    isNear a (rangeEnd none a later) n = true ↔ InRange later a n := by
  simp only [isNear_iff, rangeEnd_eq_some, InRange]

theorem length_functions (opts : Options) (module : String) (exports : List String)
    (fs : List RawFunction) (lines : LineTable) (source : Option SourceText) :
    (ofFunctions opts module exports fs lines source).value.functions.length = fs.length := by
  simp only [ofFunctions, length_markAll, List.length_map]

/-- Without a window, the range of a function decides which of its groups are references: from its
anchor, the line of its first marker, up to the first greater anchor behind it. A group with text on
the anchor line is never a reference. -/
theorem distant_by_ranges (width : Nat) (module : String) (exports : List String)
    (fs : List RawFunction) (lines : LineTable) (source : Option SourceText) :
    let listings := (ofFunctions ⟨width, none⟩ module exports fs lines source).value.functions
    listings.length = fs.length ∧
    ∀ before f after, fs = before ++ f :: after →
      ∃ l, listings[before.length]? = some l ∧
        Lists width lines source f (InRange (after.map fun g => firstLine lines g.code)) l ∧
        ∀ g ∈ l.groups, ∀ s, g.source = some s → g.line = l.anchor → g.mode = .inline := by
  intro listings
  refine ⟨length_functions .., ?_⟩
  rintro before f after rfl
  obtain ⟨l, hget, hlists⟩ := lists_ofFunctions width source none module exports before
    after fun a n _ => isNear_rangeEnd_none
  refine ⟨l, hget, hlists, ?_⟩
  intro g hg s hs hline
  obtain ⟨found, hdecided⟩ := hlists.decided hg
  obtain ⟨a, n, ha, hn, hinline, -⟩ := hdecided.near s hs
  have heq : n = a := by
    rw [hn, ha] at hline
    exact Option.some.inj hline
  subst heq
  refine hinline.mpr ⟨Nat.le_refl n, ?_⟩
  rintro e ⟨-, -, -, he, -⟩
  exact he

-- Behind the function stand one without markers and one that starts above it; its range ends where
-- the third starts. The text of line 10 is blank.
theorem distant_by_ranges_out_of_order :
    let code (ns : List Nat) : List RawInstruction :=
      ns.flatMap fun n => [⟨153, [.unsigned n]⟩, ⟨19, []⟩]
    let f : RawFunction := ⟨"f", 0, 2, code [5, 8, 9, 3, 10]⟩
    let after : List RawFunction :=
      [⟨"g", 0, 4, code []⟩, ⟨"h", 0, 6, code [3]⟩, ⟨"k", 0, 8, code [9]⟩]
    let source : Option SourceText := some ⟨[(3, "c"), (5, "a"), (8, "b"), (9, "d"), (10, " ")]⟩
    ∃ l, (ofFunctions ⟨60, none⟩ "m" [] (f :: after) .empty source).value.functions[0]? = some l ∧
      Lists 60 .empty source f (InRange [none, some 3, some 9]) l ∧
      FirstGreater 5 [none, some 3, some 9] 9 ∧
      l.groups.map (fun g => (g.line, g.mode)) =
        [(some 5, .inline), (some 8, .inline), (some 9, .distant), (some 3, .distant),
          (some 10, .unavailable)] := by
  intro code f after source
  have hlater : (after.map fun g => firstLine .empty g.code) = [none, some 3, some 9] := by
    decide +kernel +zetaReduce
  have hmodes : (ofFunctions ⟨60, none⟩ "m" [] (f :: after) .empty source).value.functions[0]?.map
      (fun l => l.groups.map fun g => (g.line, g.mode)) =
      some [(some 5, .inline), (some 8, .inline), (some 9, .distant), (some 3, .distant),
        (some 10, .unavailable)] := by
    decide +kernel +zetaReduce
  obtain ⟨-, hall⟩ := distant_by_ranges 60 "m" [] (f :: after) .empty source
  obtain ⟨l, hget, hlists, -⟩ := hall [] f after rfl
  rw [hlater] at hlists
  rw [List.length_nil] at hget
  rw [hget] at hmodes
  refine ⟨l, hget, hlists, ?_, Option.some.inj hmodes⟩
  exact ⟨[none, some 3], [], rfl, by decide, by simp⟩

/-! ### Windows -/

/-- A line of the window that reaches `w` lines past the anchor `a`. The greatest number of 32 bits
is in no window. -/
def InWindow (w a n : Nat) : Prop := a ≤ n ∧ n ≤ a + w ∧ n ≠ 2 ^ 32 - 1

theorem isNear_rangeEnd_some {later : List (Option Nat)} {w a n : Nat} (hn : n < 2 ^ 32) :
    isNear a (rangeEnd (some w) a later) n = true ↔ InWindow w a n := by
  simp only [isNear_iff, rangeEnd, SourceText.saturatingAdd, InWindow, Option.some.injEq,
    forall_eq']
  omega

/-- With a window, a group with text is a reference if its line is before the anchor of its
function, more than the window past it, or the greatest number of 32 bits; otherwise it is shown
where it stands. -/
theorem distant_by_window (width w : Nat) (module : String) (exports : List String)
    (fs : List RawFunction) (lines : LineTable) (hlines : ∀ n ∈ lines.lines, n < 2 ^ 32)
    (source : Option SourceText) :
    let listings := (ofFunctions ⟨width, some w⟩ module exports fs lines source).value.functions
    listings.length = fs.length ∧
    ∀ before f after, fs = before ++ f :: after →
      ∃ l, listings[before.length]? = some l ∧ Lists width lines source f (InWindow w) l ∧
        ∀ g ∈ l.groups, ∀ s, g.source = some s →
          ∃ a n, l.anchor = some a ∧ g.line = some n ∧
            (g.mode = .distant ↔ n < a ∨ a + w < n ∨ n = 2 ^ 32 - 1) ∧
            (g.mode = .inline ↔ ¬(n < a ∨ a + w < n ∨ n = 2 ^ 32 - 1)) := by
  intro listings
  refine ⟨length_functions .., ?_⟩
  rintro before f after rfl
  obtain ⟨l, hget, hlists⟩ := lists_ofFunctions width source (some w) module exports before
    after fun a n hn => isNear_rangeEnd_some (hn.lt hlines)
  refine ⟨l, hget, hlists, ?_⟩
  intro g hg s hs
  obtain ⟨found, hdecided⟩ := hlists.decided hg
  obtain ⟨a, n, ha, hn, hinline, hdistant⟩ := hdecided.near s hs
  have hnot : ¬InWindow w a n ↔ n < a ∨ a + w < n ∨ n = 2 ^ 32 - 1 := by
    unfold InWindow
    omega
  refine ⟨a, n, ha, hn, ?_, ?_⟩
  · rw [hdistant, hnot]
  · rw [hinline, ← hnot, not_not]

-- The lines come from a chunk, but for the last marker, whose index is past the end of the table.
theorem distant_by_window_of_two :
    let lines := (LineTable.ofChunk (some (LineTable.write ⟨0, 0, 4, 0, 0⟩ [4, 6, 7, 3]))).value
    let f : RawFunction := ⟨"f", 0, 2, [0, 1, 2, 3, 2 ^ 32 - 1].flatMap fun n =>
      [⟨153, [.unsigned n]⟩, ⟨19, []⟩]⟩
    let source : Option SourceText :=
      some ⟨[(3, "a"), (4, "b"), (6, "c"), (7, "d"), (2 ^ 32 - 1, "e")]⟩
    (∀ n ∈ lines.lines, n < 2 ^ 32) ∧
      ∃ l, (ofFunctions ⟨60, some 2⟩ "m" [] [f] lines source).value.functions[0]? = some l ∧
        Lists 60 lines source f (InWindow 2) l ∧
        l.groups.map (fun g => (g.line, g.mode)) =
          [(some 4, .inline), (some 6, .inline), (some 7, .distant), (some 3, .distant),
            (some (2 ^ 32 - 1), .distant)] := by
  intro lines f source
  have hlines : ∀ n ∈ lines.lines, n < 2 ^ 32 := by
    intro n hn
    exact Nat.lt_trans (LineTable.lt_of_mem_ofChunk hn) (by decide)
  have hmodes : (ofFunctions ⟨60, some 2⟩ "m" [] [f] lines source).value.functions[0]?.map
      (fun l => l.groups.map fun g => (g.line, g.mode)) =
      some [(some 4, .inline), (some 6, .inline), (some 7, .distant), (some 3, .distant),
        (some (2 ^ 32 - 1), .distant)] := by
    decide +kernel +zetaReduce
  obtain ⟨-, hall⟩ := distant_by_window 60 2 "m" [] [f] lines hlines source
  obtain ⟨l, hget, hlists, -⟩ := hall [] f [] rfl
  rw [List.length_nil] at hget
  rw [hget] at hmodes
  exact ⟨hlines, l, hget, hlists, Option.some.inj hmodes⟩

-- The only marker of the function has the greatest index, which stands for the line of the same
-- number. That is the anchor itself, and no line of the function is before it or past it.
theorem anchor_line_is_distant :
    let f : RawFunction := ⟨"f", 0, 2, [⟨153, [.unsigned (2 ^ 32 - 1)]⟩, ⟨19, []⟩]⟩
    let source : Option SourceText := some ⟨[(2 ^ 32 - 1, "f() -> ok.")]⟩
    ∃ l ∈ (ofFunctions ⟨60, some 0⟩ "m" [] [f] .empty source).value.functions,
      ∃ g ∈ l.groups, ∃ a n, g.source = some "f() -> ok." ∧ l.anchor = some a ∧ g.line = some n ∧
        g.mode = .distant ∧ ¬(n < a ∨ a + 0 < n) := by
  intro f source
  have hshown : ∃ l ∈ (ofFunctions ⟨60, some 0⟩ "m" [] [f] .empty source).value.functions,
      ∃ g ∈ l.groups, g.source = some "f() -> ok." ∧ l.anchor = some (2 ^ 32 - 1) ∧
        g.line = some (2 ^ 32 - 1) ∧ g.mode = .distant := by
    decide +kernel +zetaReduce
  obtain ⟨l, hl, g, hg, hsource, ha, hn, hmode⟩ := hshown
  exact ⟨l, hl, g, hg, _, _, hsource, ha, hn, hmode, by omega⟩

end Analysis

end BeamScope
