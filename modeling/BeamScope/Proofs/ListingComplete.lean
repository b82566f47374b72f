import BeamScope.Analysis
import BeamScope.Proofs.FunctionSplit

/-!
# A listing shows the code, whole and in order

Groups only gather instructions that follow each other: pushing, merging and marking keep every
instruction in its place, and a function's groups hold all of it but its line markers. Together with
the split into functions this carries an instruction from the stream to the listing.
-/

namespace BeamScope

/-- The instructions of groups, in order. -/
def SourceGroup.shown (gs : List SourceGroup) : List Instruction :=
  gs.flatMap SourceGroup.instructions

/-- The instructions of a module as its listing shows them. -/
def ModuleAnalysis.shown (a : ModuleAnalysis) : List Instruction :=
  a.functions.flatMap fun f => SourceGroup.shown f.groups

namespace SourceGroup

/-! ### Groups -/

theorem shown_push (gs : List SourceGroup) (g : SourceGroup) :
    shown (push gs g) = shown gs ++ g.instructions := by
  induction gs with
  | nil => simp [push, shown]
  | cons a rest ih =>
    cases rest with
    | nil =>
      by_cases hl : a.line = g.line
      · simp [push, shown, hl]
      · simp [push, shown, hl]
    | cons b rest =>
      simp only [shown] at ih ⊢
      simp only [push, List.flatMap_cons, List.append_assoc] at ih ⊢
      rw [ih]

theorem shown_merge (left right : List SourceGroup) :
    shown (merge left right) = shown left ++ shown right := by
  induction right generalizing left with
  | nil => simp [merge, shown]
  | cons g right ih =>
    have hr := ih (push left g)
    rw [shown_push, List.append_assoc] at hr
    exact hr

theorem instructions_ofRun (source : Option SourceText) (line : Option Nat)
    (run : List Instruction) : (ofRun source line run).instructions = run := by
  unfold ofRun
  split <;> rfl

theorem flatMap_runs (lines : LineTable) (current : Option Nat)
    (code : List (RawInstruction × Instruction)) :
    (runs lines current code).flatMap Prod.snd =
      (code.filter fun p => p.1.lineIndex?.isNone).map Prod.snd := by
  induction code generalizing current with
  | nil => simp [runs]
  | cons p code ih =>
    obtain ⟨raw, i⟩ := p
    cases hl : raw.lineIndex? with
    | some index => simp [runs, hl, ih]
    | none =>
      have hi := ih current
      simp only [runs, hl, List.filter_cons, Option.isNone_none, if_true, List.map_cons, ← hi]
      cases runs lines current code with
      | nil => simp
      | cons q more => simp

/-- Runs without instructions show nothing. -/
theorem shown_map_ofRun (source : Option SourceText)
    (rs : List (Option Nat × List Instruction)) :
    shown ((rs.filter fun p => !p.2.isEmpty).map fun (line, run) => ofRun source line run) =
      rs.flatMap Prod.snd := by
  induction rs with
  | nil => rfl
  | cons p rs ih =>
    obtain ⟨line, run⟩ := p
    cases run with
    | nil => simpa using ih
    | cons i run =>
      simp only [shown] at ih
      simp [shown, instructions_ofRun, ih]

theorem shown_correlate (f : Function) (lines : LineTable) (source : Option SourceText) :
    shown (correlate f lines source) =
      ((f.raw.zip f.instructions).filter fun p => p.1.lineIndex?.isNone).map Prod.snd := by
  rw [correlate, shown_merge, shown_map_ofRun, flatMap_runs]
  rfl

theorem instructions_markDistant (start : Nat) (stop : Option Nat) (g : SourceGroup) :
    (markDistant start stop g).instructions = g.instructions := by
  unfold markDistant
  split
  · rfl
  · split <;> rfl

theorem shown_map_markDistant (start : Nat) (stop : Option Nat) (gs : List SourceGroup) :
    shown (gs.map (markDistant start stop)) = shown gs := by
  simp only [shown, List.flatMap_map, instructions_markDistant]

end SourceGroup

namespace Analysis

open SourceGroup

/-! ### Functions -/

theorem shown_listing (width : Nat) (lines : LineTable) (source : Option SourceText)
    (f : RawFunction) :
    shown (listing width lines source f).groups =
      (f.code.filter fun i => i.lineIndex?.isNone).map (Format.instruction width) := by
  have hc := shown_correlate (disassemble width lines f) lines source
  simp only [disassemble, ← List.map_prod_left_eq_zip, List.filter_map, List.map_map] at hc
  exact hc

theorem flatMap_markAll (window : Option Nat) (ls : List FunctionListing) :
    (markAll window ls).flatMap (fun l => shown l.groups) =
      ls.flatMap fun l => shown l.groups := by
  induction ls with
  | nil => rfl
  | cons l rest ih =>
    simp only [markAll, List.flatMap_cons, ih]
    cases l.anchor with
    | none => rfl
    | some a => simp only [shown_map_markDistant]

theorem shown_ofFunctions (opts : Options) (module : String) (exports : List String)
    (fs : List RawFunction) (lines : LineTable) (source : Option SourceText) :
    (ofFunctions opts module exports fs lines source).value.shown =
      ((fs.flatMap RawFunction.code).filter fun i => i.lineIndex?.isNone).map
        (Format.instruction opts.literalWidth) := by
  simp only [ModuleAnalysis.shown, ofFunctions, flatMap_markAll, List.flatMap_map, shown_listing,
    List.filter_flatMap, List.map_flatMap]

/-- Nothing is lost, doubled or moved between the stream of a code chunk and its listing: with any
lines, source text and options, a listing shows the part of the stream that functions are made of,
without its line markers. -/
theorem shown_of_tokenize (t : Code.Tables) (chunk : Bytes) (fs : List RawFunction)
    (h : (Code.tokenize t chunk).value = .ok fs) :
    ∃ header is, CodeHeader.parse chunk = .ok header ∧
      (Code.instructions t chunk header.codeOffset).value = .ok is ∧
      ∀ opts module exports lines source,
        (ofFunctions opts module exports fs lines source).value.shown =
          ((Code.functionPart is).filter fun i => i.lineIndex?.isNone).map
            (Format.instruction opts.literalWidth) := by
  obtain ⟨header, is, hparse, his, hfs⟩ := Code.tokenize_eq_ok h
  refine ⟨header, is, hparse, his, ?_⟩
  intro opts module exports lines source
  have hends := Code.endsLast_of_instructions his
  rw [shown_ofFunctions, hfs, Code.flatMap_code_splitFunctions hends]

-- An instruction before the first function, a line marker before its head, and two functions whose
-- code comes from one line.
theorem shown_of_tokenize_two_functions :
    let t : Code.Tables := ⟨⟨["f"]⟩, .empty, none, true⟩
    let chunk : Bytes :=
      [0, 0, 0, 16, 0, 0, 0, 0, 0, 0, 0, 153, 0, 0, 0, 4, 0, 0, 0, 2,
        19, 153, 0x10, 1, 0x10, 2, 0x12, 0x12, 0x00, 1, 0x20, 153, 0x20, 19,
        1, 0x30, 2, 0x12, 0x12, 0x10, 1, 0x40, 19, 3]
    ∃ fs, (Code.tokenize t chunk).value = .ok fs ∧
      ∀ source, (ofFunctions ⟨60, none⟩ "f" [] fs ⟨[0, 7, 7]⟩ source).value.shown.map
          Instruction.text =
        ["label f(1)", "func_info :f, :f, 0", "label f(2)", "return",
          "label f(3)", "func_info :f, :f, 1", "label f(4)", "return"] := by
  intro t chunk
  have hok : (Code.tokenize t chunk).value.toOption.isSome = true := by
    decide +kernel +zetaReduce
  have htexts : ((CodeHeader.parse chunk).toOption.bind fun header =>
      (Code.instructions t chunk header.codeOffset).value.toOption.map fun is =>
        (((Code.functionPart is).filter fun i => i.lineIndex?.isNone).map
          (Format.instruction 60)).map Instruction.text) =
      some ["label f(1)", "func_info :f, :f, 0", "label f(2)", "return",
        "label f(3)", "func_info :f, :f, 1", "label f(4)", "return"] := by
    decide +kernel +zetaReduce
  cases hfs : (Code.tokenize t chunk).value with
  | error e => simp [hfs, Except.toOption] at hok
  | ok fs =>
    refine ⟨fs, rfl, ?_⟩
    intro source
    obtain ⟨header, is, hparse, his, hshown⟩ := shown_of_tokenize t chunk fs hfs
    rw [hshown]
    simpa [hparse, his, Except.toOption] using htexts

end Analysis

end BeamScope
