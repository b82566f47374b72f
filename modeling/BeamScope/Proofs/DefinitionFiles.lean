import BeamScope.InstructionSet.Definition
import BeamScope.Proofs.Bytes
import Mathlib.Data.List.Nodup

/-!
# Definition files put together

The numbers and the names in a definition file are distinct. Two files, one after the other, are read
as the definitions of the first and those of the second, none of them changed, if no number or name
is in both and the first file does not end in a description that no definition follows. If a number or
a name is in both, the second definition of one is a fault.

A file is read line by line. What a line does depends on its kind, and only a definition line depends
on the definitions before it. So a second file is read alike behind any definitions that its own do
not meet.
-/

namespace BeamScope

namespace Text

theorem splitFeeds_ne_nil (cs : List Char) : splitFeeds cs ≠ [] := by
  cases cs with
  | nil => simp [splitFeeds]
  | cons c cs =>
    rw [splitFeeds]
    split
    · simp
    · split <;> simp

theorem splitFeeds_append_feed (as bs : List Char) :
    splitFeeds (as ++ '\n' :: bs) = splitFeeds as ++ splitFeeds bs := by
  induction as with
  | nil => simp [splitFeeds]
  | cons c as ih =>
    rw [List.cons_append, splitFeeds, ih, splitFeeds]
    by_cases hc : c = '\n'
    · rw [if_pos hc, if_pos hc, List.cons_append]
    · rw [if_neg hc, if_neg hc]
      cases hpieces : splitFeeds as with
      | nil => exact absurd hpieces (splitFeeds_ne_nil as)
      | cons piece pieces => rfl

theorem trim_append_blank (cs : List Char) {c : Char} (hc : isBlank c = true) :
    trim (cs ++ [c]) = trim cs := by
  unfold trim trimStart trimEnd dropEndWhile
  rw [List.dropWhile_append]
  split
  · rename_i hblank
    rw [List.isEmpty_iff] at hblank
    simp [hblank, hc]
  · simp [hc]

theorem trim_dropCarriageReturn (cs : List Char) : trim (dropCarriageReturn cs) = trim cs := by
  unfold dropCarriageReturn
  split
  · rename_i hlast
    obtain ⟨front, rfl⟩ := List.getLast?_eq_some_iff.mp hlast
    rw [List.dropLast_concat, trim_append_blank front (by decide)]
  · rfl

end Text

namespace InstructionSet

open Text

/-! ### Lines -/

/-- The lines of a file that are not blank, without blanks at their ends. -/
def content (source : String) : List (List Char) :=
  ((lines source.toList).map trim).filter fun line => !line.isEmpty

theorem content_eq (source : String) :
    content source = ((splitFeeds source.toList).map trim).filter fun line => !line.isEmpty := by
  have hreturn : trim ∘ dropCarriageReturn = trim := funext trim_dropCarriageReturn
  unfold content lines
  rcases List.eq_nil_or_concat (splitFeeds source.toList) with hpieces | ⟨front, last, hpieces⟩
  · exact absurd hpieces (splitFeeds_ne_nil _)
  · have hlast : ((if last.isEmpty then [] else [last]).map trim).filter (fun line => !line.isEmpty) =
        ([last].map trim).filter fun line => !line.isEmpty := by
      cases last with
      | nil => rfl
      | cons c cs => rfl
    rw [List.concat_eq_append] at hpieces
    simp only [hpieces, List.dropLast_concat, List.getLastD_concat, List.map_append, List.map_map,
      hreturn, List.filter_append, hlast]

theorem content_append (first second : String) :
    content (first ++ "\n" ++ second) = content first ++ content second := by
  have hfeed : (first ++ "\n" ++ second).toList = first.toList ++ '\n' :: second.toList := by
    rw [String.toList_append, String.toList_append, List.append_assoc]
    rfl
  rw [content_eq, content_eq, content_eq, hfeed, splitFeeds_append_feed, List.map_append,
    List.filter_append]

inductive LineKind where
  | blank
  | format
  | description
  | comment
  | definition
  deriving DecidableEq

def kind (line : List Char) : LineKind :=
  if line.isEmpty then .blank
  else if (after? "BEAM_FORMAT_NUMBER=".toList line).isSome then .format
  else if (after? ['#', '#'] line).isSome then .description
  else if line.head? = some '#' then .comment
  else .definition

def formatOn (line : List Char) : Except LineFault Nat :=
  (readNumber (2 ^ 32) (trim ((after? "BEAM_FORMAT_NUMBER=".toList line).getD []))).mapError
    .badFormatNumber

def annotationOn (line : List Char) : List Char := trim ((after? ['#', '#'] line).getD [])

theorem step_eq (ds : Definitions) (p : Pending) (line : List Char) :
    step ds p line =
      match kind line with
      | .blank => .ok (ds, p)
      | .format => do return ({ ds with formatNumber := ← formatOn line }, p)
      | .description => .ok (ds, p.annotate (annotationOn line))
      | .comment => .ok (ds, p)
      | .definition => do return (← ds.add (← readDefinition p line), Pending.none) := by
  unfold step kind formatOn annotationOn
  split
  · rfl
  · cases hformat : after? "BEAM_FORMAT_NUMBER=".toList line with
    | some number => rfl
    | none =>
      cases hannotation : after? ['#', '#'] line with
      | some text => rfl
      | none =>
        simp only [Option.isSome_none, Bool.false_eq_true, if_false]
        split <;> rfl

theorem step_definition {ds : Definitions} {p : Pending} {line : List Char} {d : Definition}
    (hkind : kind line = .definition) (hread : readDefinition p line = .ok d) :
    step ds p line = (ds.add d).map (·, Pending.none) := by
  rw [step_eq, hkind]
  simp only [hread]
  change (ds.add d >>= fun es => pure (es, Pending.none)) = _
  cases ds.add d <;> rfl

theorem step_definition_eq_ok {ds es : Definitions} {p q : Pending} {line : List Char}
    (hkind : kind line = .definition) (h : step ds p line = .ok (es, q)) :
    ∃ d, readDefinition p line = .ok d ∧ ds.add d = .ok es ∧ q = Pending.none := by
  rw [step_eq, hkind] at h
  obtain ⟨d, hread, hd⟩ := bind_eq_ok h
  obtain ⟨es', hadd, hes⟩ := bind_eq_ok hd
  cases hes
  exact ⟨d, hread, hadd, rfl⟩

/-! ### Runs -/

/-- The lines of a file, from what was read before. -/
def run (ds : Definitions) (p : Pending) :
    List (List Char) → Except LineFault (Definitions × Pending)
  | [] => .ok (ds, p)
  | line :: rest => do
    let (ds, p) ← step ds p line
    run ds p rest

theorem run_append (ds : Definitions) (p : Pending) (as bs : List (List Char)) :
    run ds p (as ++ bs) = run ds p as >>= fun (ds, p) => run ds p bs := by
  induction as generalizing ds p with
  | nil => rfl
  | cons line as ih =>
    rw [List.cons_append, run, run]
    cases step ds p line with
    | error e => rfl
    | ok next => exact ih next.1 next.2

/-- Blank lines say nothing, and line numbers matter only for faults. -/
theorem readLines_eq (n : Nat) (ds : Definitions) (p : Pending) (ls : List (List Char)) :
    (readLines n ds p ls).mapError Prod.snd =
      (run ds p ((ls.map trim).filter fun line => !line.isEmpty)).map Prod.fst := by
  induction ls generalizing n ds p with
  | nil => rfl
  | cons line ls ih =>
    rw [readLines, List.map_cons]
    cases hline : trim line with
    | nil => exact ih (n + 1) ds p
    | cons c cs =>
      rw [List.filter_cons_of_pos rfl, run]
      cases step ds p (c :: cs) with
      | error e => rfl
      | ok next => exact ih (n + 1) next.1 next.2

theorem mapError_parse (source : String) :
    (parse source).mapError Prod.snd =
      (run ⟨0, []⟩ Pending.none (content source)).map Prod.fst :=
  readLines_eq 1 ⟨0, []⟩ Pending.none (lines source.toList)

theorem parse_eq_ok {source : String} {ds : Definitions} :
    parse source = .ok ds ↔ ∃ p, run ⟨0, []⟩ Pending.none (content source) = .ok (ds, p) := by
  have h := mapError_parse source
  constructor
  · intro hparse
    rw [hparse] at h
    cases hrun : run ⟨0, []⟩ Pending.none (content source) with
    | error e =>
      rw [hrun] at h
      cases h
    | ok last =>
      rw [hrun] at h
      cases h
      exact ⟨last.2, rfl⟩
  · rintro ⟨p, hrun⟩
    rw [hrun] at h
    cases hparse : parse source with
    | error e =>
      rw [hparse] at h
      cases h
    | ok es =>
      rw [hparse] at h
      cases h
      rfl

theorem parse_eq_error {source : String} {e : LineFault}
    (hrun : run ⟨0, []⟩ Pending.none (content source) = .error e) :
    ∃ line, parse source = .error (line, e) := by
  have h := mapError_parse source
  rw [hrun] at h
  cases hparse : parse source with
  | error fault =>
    rw [hparse] at h
    cases h
    exact ⟨fault.1, rfl⟩
  | ok ds =>
    rw [hparse] at h
    cases h

/-! ### Distinct numbers and names -/

structure Definitions.WellFormed (ds : Definitions) : Prop where
  id_ne_zero : ∀ d ∈ ds.defs, d.id ≠ 0
  nodup_ids : (ds.defs.map Definition.id).Nodup
  nodup_names : (ds.defs.map Definition.name).Nodup

/-- The two are told apart by number and by name. -/
def Definition.Differs (d e : Definition) : Prop := d.id ≠ e.id ∧ d.name ≠ e.name

theorem any_eq_true_iff {ds : Definitions} {d : Definition} :
    (ds.defs.any fun o => o.id == d.id || o.name == d.name) = true ↔
      ∃ o ∈ ds.defs, ¬o.Differs d := by
  simp only [List.any_eq_true, Bool.or_eq_true, beq_iff_eq, Definition.Differs, not_and_or, not_not]

theorem add_eq_duplicate {ds : Definitions} {d : Definition} (hzero : d.id ≠ 0)
    (h : ∃ o ∈ ds.defs, ¬o.Differs d) : ds.add d = .error (.duplicate d.name d.id) := by
  rw [Definitions.add, if_neg hzero, if_pos (any_eq_true_iff.mpr h)]

theorem add_eq_ok {ds es : Definitions} {d : Definition} :
    ds.add d = .ok es ↔
      d.id ≠ 0 ∧ (∀ o ∈ ds.defs, o.Differs d) ∧ es = { ds with defs := ds.defs ++ [d] } := by
  by_cases hzero : d.id = 0
  · simp [Definitions.add, hzero]
  · by_cases hmet : ∃ o ∈ ds.defs, ¬o.Differs d
    · rw [add_eq_duplicate hzero hmet]
      obtain ⟨o, ho, hnot⟩ := hmet
      constructor
      · nofun
      · rintro ⟨-, hfresh, -⟩
        exact absurd (hfresh o ho) hnot
    · rw [Definitions.add, if_neg hzero, if_neg (mt any_eq_true_iff.mp hmet), Except.ok.injEq]
      have hfresh : ∀ o ∈ ds.defs, o.Differs d := by
        intro o ho
        by_contra hnot
        exact hmet ⟨o, ho, hnot⟩
      constructor
      · rintro rfl
        exact ⟨hzero, hfresh, rfl⟩
      · rintro ⟨-, -, rfl⟩
        rfl

theorem nodup_map_append_singleton {α β : Type} {f : α → β} {as : List α} {a : α}
    (has : (as.map f).Nodup) (hnew : ∀ o ∈ as, f o ≠ f a) : ((as ++ [a]).map f).Nodup := by
  rw [List.map_append, List.map_singleton, ← List.concat_eq_append]
  apply List.Nodup.concat _ has
  rintro hmem
  obtain ⟨o, ho, heq⟩ := List.mem_map.mp hmem
  exact hnew o ho heq

theorem Definitions.WellFormed.add {ds es : Definitions} {d : Definition} (h : ds.WellFormed)
    (hadd : ds.add d = .ok es) : es.WellFormed := by
  obtain ⟨hzero, hfresh, rfl⟩ := add_eq_ok.mp hadd
  constructor
  · intro o ho
    rcases List.mem_append.mp ho with ho | ho
    · exact h.id_ne_zero o ho
    · rw [List.mem_singleton.mp ho]
      exact hzero
  · exact nodup_map_append_singleton h.nodup_ids fun o ho => (hfresh o ho).1
  · exact nodup_map_append_singleton h.nodup_names fun o ho => (hfresh o ho).2

/-- What a line may do, by its kind. -/
theorem step_cases {ds es : Definitions} {p q : Pending} {line : List Char}
    (h : step ds p line = .ok (es, q)) :
    (kind line = .format ∧ (∃ n, es = { ds with formatNumber := n }) ∧ q = p) ∨
    (kind line = .description ∧ es = ds) ∨
    ((kind line = .blank ∨ kind line = .comment) ∧ es = ds ∧ q = p) ∨
    (kind line = .definition ∧ (∃ d, ds.add d = .ok es) ∧ q = Pending.none) := by
  cases hkind : kind line with
  | blank =>
    rw [step_eq, hkind] at h
    cases h
    exact .inr (.inr (.inl ⟨.inl rfl, rfl, rfl⟩))
  | format =>
    rw [step_eq, hkind] at h
    obtain ⟨n, -, hn⟩ := bind_eq_ok h
    cases hn
    exact .inl ⟨rfl, ⟨n, rfl⟩, rfl⟩
  | description =>
    rw [step_eq, hkind] at h
    cases h
    exact .inr (.inl ⟨rfl, rfl⟩)
  | comment =>
    rw [step_eq, hkind] at h
    cases h
    exact .inr (.inr (.inl ⟨.inr rfl, rfl, rfl⟩))
  | definition =>
    obtain ⟨d, -, hadd, hq⟩ := step_definition_eq_ok hkind h
    exact .inr (.inr (.inr ⟨rfl, ⟨d, hadd⟩, hq⟩))

theorem step_wellFormed {ds es : Definitions} {p q : Pending} {line : List Char}
    (hds : ds.WellFormed) (h : step ds p line = .ok (es, q)) : es.WellFormed := by
  rcases step_cases h with ⟨-, ⟨n, rfl⟩, -⟩ | ⟨-, rfl⟩ | ⟨-, rfl, -⟩ | ⟨-, ⟨d, hadd⟩, -⟩
  · exact ⟨hds.id_ne_zero, hds.nodup_ids, hds.nodup_names⟩
  · exact hds
  · exact hds
  · exact hds.add hadd

theorem step_isPrefix {ds es : Definitions} {p q : Pending} {line : List Char}
    (h : step ds p line = .ok (es, q)) : ds.defs <+: es.defs := by
  rcases step_cases h with ⟨-, ⟨n, rfl⟩, -⟩ | ⟨-, rfl⟩ | ⟨-, rfl, -⟩ | ⟨-, ⟨d, hadd⟩, -⟩
  · exact List.prefix_rfl
  · exact List.prefix_rfl
  · exact List.prefix_rfl
  · obtain ⟨-, -, rfl⟩ := add_eq_ok.mp hadd
    exact List.prefix_append ..

/-- A run that succeeds takes its first step, and then the others. -/
theorem run_cons_eq_ok {ds es : Definitions} {p q : Pending} {line : List Char}
    {ls : List (List Char)} (h : run ds p (line :: ls) = .ok (es, q)) :
    ∃ ms r, step ds p line = .ok (ms, r) ∧ run ms r ls = .ok (es, q) := by
  obtain ⟨⟨ms, r⟩, hstep, hrun⟩ := bind_eq_ok h
  exact ⟨ms, r, hstep, hrun⟩

theorem run_wellFormed {ds es : Definitions} {p q : Pending} {ls : List (List Char)}
    (hds : ds.WellFormed) (h : run ds p ls = .ok (es, q)) : es.WellFormed := by
  induction ls generalizing ds p with
  | nil =>
    cases h
    exact hds
  | cons line ls ih =>
    obtain ⟨ms, r, hstep, hrun⟩ := run_cons_eq_ok h
    exact ih (step_wellFormed hds hstep) hrun

theorem run_isPrefix {ds es : Definitions} {p q : Pending} {ls : List (List Char)}
    (h : run ds p ls = .ok (es, q)) : ds.defs <+: es.defs := by
  induction ls generalizing ds p with
  | nil =>
    cases h
    exact List.prefix_rfl
  | cons line ls ih =>
    obtain ⟨ms, r, hstep, hrun⟩ := run_cons_eq_ok h
    exact (step_isPrefix hstep).trans (ih hrun)

theorem wellFormed_of_parse {source : String} {ds : Definitions} (h : parse source = .ok ds) :
    ds.WellFormed := by
  obtain ⟨p, hrun⟩ := parse_eq_ok.mp h
  apply run_wellFormed _ hrun
  exact ⟨nofun, List.nodup_nil, List.nodup_nil⟩

/-! ### What is left pending -/

/-- Each annotation has a definition behind it. -/
def settled : List (List Char) → Bool
  | [] => true
  | line :: ls =>
    (kind line != .description || ls.any fun l => kind l = .definition) && settled ls

/-- Only an annotation leaves something pending, and only until the next definition. -/
theorem run_settled {ds es : Definitions} {p q : Pending} {ls : List (List Char)}
    (hls : settled ls = true)
    (hp : p = Pending.none ∨ (ls.any fun l => kind l = .definition) = true)
    (h : run ds p ls = .ok (es, q)) : q = Pending.none := by
  induction ls generalizing ds p with
  | nil =>
    cases h
    rcases hp with rfl | hnone
    · rfl
    · cases hnone
  | cons line ls ih =>
    obtain ⟨ms, r, hstep, hrun⟩ := run_cons_eq_ok h
    rw [settled, Bool.and_eq_true] at hls
    apply ih hls.2 _ hrun
    rw [List.any_cons] at hp
    rcases step_cases hstep with ⟨hkind, -, rfl⟩ | ⟨hkind, -⟩ | ⟨hkind, -, rfl⟩ | ⟨-, -, rfl⟩
    · simpa [hkind] using hp
    · right
      simpa [hkind] using hls.1
    · rcases hkind with hkind | hkind
      · simpa [hkind] using hp
      · simpa [hkind] using hp
    · exact .inl rfl

/-! ### Behind other definitions -/

/-- No definition of the second file has a number or a name of the first. -/
def Apart (base ds : Definitions) : Prop := ∀ o ∈ base.defs, ∀ d ∈ ds.defs, o.Differs d

/-- What is read behind `base` when `ds` is read alone; `format` says whether a format number was
read with it. -/
def Definitions.behind (base : Definitions) (format : Bool) (ds : Definitions) : Definitions :=
  ⟨if format then ds.formatNumber else base.formatNumber, base.defs ++ ds.defs⟩

section Behind

variable {base ds es : Definitions} {p q : Pending} {line : List Char} {ls : List (List Char)}

theorem Apart.of_isPrefix (h : Apart base es) (hds : ds.defs <+: es.defs) : Apart base ds :=
  fun o ho d hd => h o ho d (hds.subset hd)

/-- The definitions before a line decide only whether its own definition is added. -/
theorem step_behind (format : Bool) (hstep : step ds p line = .ok (es, q)) (h : Apart base es) :
    step (base.behind format ds) p line =
      .ok (base.behind (format || kind line = .format) es, q) := by
  cases hkind : kind line with
  | definition =>
    obtain ⟨d, hread, hadd, rfl⟩ := step_definition_eq_ok hkind hstep
    obtain ⟨hzero, hfresh, rfl⟩ := add_eq_ok.mp hadd
    have hbehind : (base.behind format ds).add d =
        .ok (base.behind format { ds with defs := ds.defs ++ [d] }) := by
      apply add_eq_ok.mpr
      refine ⟨hzero, ?_, ?_⟩
      · intro o ho
        rcases List.mem_append.mp ho with ho | ho
        · exact h o ho d (by simp)
        · exact hfresh o ho
      · simp [Definitions.behind]
    rw [step_definition hkind hread, hbehind]
    simp [Except.map]
  | format =>
    rw [step_eq, hkind] at hstep ⊢
    obtain ⟨n, hn, hes⟩ := bind_eq_ok hstep
    cases hes
    simp [hn, Definitions.behind]
  | blank =>
    rw [step_eq, hkind] at hstep ⊢
    cases hstep
    simp
  | description =>
    rw [step_eq, hkind] at hstep ⊢
    cases hstep
    simp
  | comment =>
    rw [step_eq, hkind] at hstep ⊢
    cases hstep
    simp

theorem step_duplicate (format : Bool) (hstep : step ds p line = .ok (es, q)) (hds : Apart base ds)
    (hes : ¬Apart base es) :
    ∃ d ∈ es.defs, (∃ o ∈ base.defs, ¬o.Differs d) ∧
      step (base.behind format ds) p line = .error (.duplicate d.name d.id) := by
  rcases step_cases hstep with ⟨-, ⟨n, rfl⟩, -⟩ | ⟨-, rfl⟩ | ⟨-, rfl, -⟩ | ⟨hkind, -, -⟩
  · exact absurd hds hes
  · exact absurd hds hes
  · exact absurd hds hes
  · obtain ⟨d, hread, hadd, rfl⟩ := step_definition_eq_ok hkind hstep
    obtain ⟨hzero, -, rfl⟩ := add_eq_ok.mp hadd
    have hmet : ∃ o ∈ base.defs, ¬o.Differs d := by
      by_contra hfresh
      apply hes
      intro o ho e he
      rcases List.mem_append.mp he with he | he
      · exact hds o ho e he
      · rw [List.mem_singleton.mp he]
        by_contra hnot
        exact hfresh ⟨o, ho, hnot⟩
    refine ⟨d, by simp, hmet, ?_⟩
    obtain ⟨o, ho, hnot⟩ := hmet
    rw [step_definition hkind hread,
      add_eq_duplicate hzero ⟨o, List.mem_append_left _ ho, hnot⟩]
    rfl

theorem run_behind (format : Bool) (hrun : run ds p ls = .ok (es, q)) (h : Apart base es) :
    run (base.behind format ds) p ls =
      .ok (base.behind (format || ls.any fun l => kind l = .format) es, q) := by
  induction ls generalizing ds p format with
  | nil =>
    cases hrun
    simp [run]
  | cons line ls ih =>
    obtain ⟨ms, r, hstep, hrest⟩ := run_cons_eq_ok hrun
    have hms := h.of_isPrefix (run_isPrefix hrest)
    rw [run, step_behind format hstep hms, List.any_cons, ← Bool.or_assoc]
    exact ih _ hrest

theorem run_duplicate (format : Bool) (hrun : run ds p ls = .ok (es, q)) (hds : Apart base ds)
    (hes : ¬Apart base es) :
    ∃ d ∈ es.defs, (∃ o ∈ base.defs, ¬o.Differs d) ∧
      run (base.behind format ds) p ls = .error (.duplicate d.name d.id) := by
  induction ls generalizing ds p format with
  | nil =>
    cases hrun
    exact absurd hds hes
  | cons line ls ih =>
    obtain ⟨ms, r, hstep, hrest⟩ := run_cons_eq_ok hrun
    by_cases hms : Apart base ms
    · rw [run, step_behind format hstep hms]
      exact ih _ hrest hms
    · obtain ⟨d, hd, hmet, hfault⟩ := step_duplicate format hstep hds hms
      rw [run, hfault]
      exact ⟨d, (run_isPrefix hrest).subset hd, hmet, rfl⟩

end Behind

section Joined

variable {first second : String} {ds es : Definitions}

/-- Behind a file that leaves nothing pending, the second file is read from its first line as it is
alone. -/
theorem run_joined (hfirst : parse first = .ok ds) (hsettled : settled (content first) = true) :
    run ⟨0, []⟩ Pending.none (content (first ++ "\n" ++ second)) =
      run (ds.behind false ⟨0, []⟩) Pending.none (content second) := by
  obtain ⟨p, hrun⟩ := parse_eq_ok.mp hfirst
  have hp := run_settled hsettled (.inl rfl) hrun
  have hbase : ds.behind false ⟨0, []⟩ = ds := by simp [Definitions.behind]
  rw [content_append, run_append, hrun, hp, hbase]
  rfl

theorem parse_joined (hfirst : parse first = .ok ds) (hsecond : parse second = .ok es)
    (hsettled : settled (content first) = true) (h : Apart ds es) :
    parse (first ++ "\n" ++ second) =
      .ok (ds.behind ((content second).any fun l => kind l = .format) es) := by
  obtain ⟨p, hrun⟩ := parse_eq_ok.mp hsecond
  rw [parse_eq_ok, run_joined hfirst hsettled, run_behind false hrun h, Bool.false_or]
  exact ⟨p, rfl⟩

theorem parse_joined_duplicate (hfirst : parse first = .ok ds) (hsecond : parse second = .ok es)
    (hsettled : settled (content first) = true) (h : ¬Apart ds es) :
    ∃ line, ∃ d ∈ es.defs, (∃ o ∈ ds.defs, ¬o.Differs d) ∧
      parse (first ++ "\n" ++ second) = .error (line, .duplicate d.name d.id) := by
  obtain ⟨p, hrun⟩ := parse_eq_ok.mp hsecond
  have hnothing : Apart ds ⟨0, []⟩ := fun _ _ => nofun
  obtain ⟨d, hd, hmet, hfault⟩ := run_duplicate false hrun hnothing h
  rw [← run_joined hfirst hsettled] at hfault
  obtain ⟨line, hline⟩ := parse_eq_error hfault
  exact ⟨line, d, hd, hmet, hline⟩

end Joined

/-- In a definition file that is read, no number is zero, and numbers and names are distinct. Of two
such files, of which the first has a definition behind each annotation, the first followed by the
second is a file with the definitions of both, unchanged and in order, and with the format number of
the second if that has one; unless a number or a name is defined in both, which is a fault at a
definition of the second. -/
theorem parse_joins_files :
    (∀ source ds, parse source = .ok ds → (∀ d ∈ ds.defs, d.id ≠ 0) ∧
      (ds.defs.map Definition.id).Nodup ∧ (ds.defs.map Definition.name).Nodup) ∧
    ∀ first second ds es, parse first = .ok ds → parse second = .ok es →
      settled (content first) = true →
      ((∃ o ∈ ds.defs, ∃ d ∈ es.defs, o.id = d.id ∨ o.name = d.name) →
        ∃ line, ∃ d ∈ es.defs, (∃ o ∈ ds.defs, o.id = d.id ∨ o.name = d.name) ∧
          parse (first ++ "\n" ++ second) = .error (line, .duplicate d.name d.id)) ∧
      ((∀ o ∈ ds.defs, ∀ d ∈ es.defs, o.id ≠ d.id ∧ o.name ≠ d.name) →
        parse (first ++ "\n" ++ second) = .ok
          ⟨if (content second).any fun l => kind l = .format then es.formatNumber
            else ds.formatNumber, ds.defs ++ es.defs⟩) := by
  constructor
  · intro source ds h
    have hds := wellFormed_of_parse h
    exact ⟨hds.id_ne_zero, hds.nodup_ids, hds.nodup_names⟩
  · intro first second ds es hfirst hsecond hsettled
    have hmeet (o d : Definition) : ¬o.Differs d ↔ o.id = d.id ∨ o.name = d.name := by
      rw [Definition.Differs, not_and_or, not_not, not_not]
    constructor
    · rintro ⟨o, ho, d, hd, hod⟩
      have hnot : ¬Apart ds es := fun h => (hmeet o d).mpr hod (h o ho d hd)
      simpa only [hmeet] using parse_joined_duplicate hfirst hsecond hsettled hnot
    · intro h
      exact parse_joined hfirst hsecond hsettled h

-- A documented definition, then a file with a format number; and the first of them twice.
theorem parse_joins_files_documented :
    let first := "# one\n## @spec move S D\n## @doc Moves.\n1: move/2"
    let second := "BEAM_FORMAT_NUMBER=3\r\n2: -swap/1\n## @doc"
    parse (first ++ "\n" ++ second) = .ok ⟨3,
        [⟨1, "move", 2, false, some "Moves.", ["S", "D"]⟩, ⟨2, "swap", 1, true, none, []⟩]⟩ ∧
      ∃ line, parse (first ++ "\n" ++ first) = .error (line, .duplicate "move" 1) := by
  intro first second
  have hfirst : parse first = .ok ⟨0, [⟨1, "move", 2, false, some "Moves.", ["S", "D"]⟩]⟩ := by
    decide +kernel
  have hsecond : parse second = .ok ⟨3, [⟨2, "swap", 1, true, none, []⟩]⟩ := by decide +kernel
  have hsettled : settled (content first) = true := by decide +kernel
  have hformat : ((content second).any fun l => kind l = .format) = true := by decide +kernel
  have hjoins := parse_joins_files.2 first
  constructor
  · rw [(hjoins second _ _ hfirst hsecond hsettled).2 (by decide), if_pos hformat]
    rfl
  · obtain ⟨line, d, hd, -, hline⟩ := (hjoins first _ _ hfirst hfirst hsettled).1 (by decide)
    rw [List.mem_singleton.mp hd] at hline
    exact ⟨line, hline⟩

end InstructionSet

end BeamScope
