import BeamScope.Proofs.CallGraphExact
import BeamScope.Proofs.FunctionParts

/-!
# Where a call to a label leads

A call to a label leads to a function that is entered there, and a function is entered at the first
label behind its head. So the label that is called stands in the code of the function that the call
leads to, with one exception. A function whose first label has no number, or that has no label at
all, is entered at 0; a call to label 0 leads to it although no such label is there.
-/

namespace BeamScope

/-- The number of a label; `none` for other instructions. -/
def RawInstruction.labelNumber? (i : RawInstruction) : Option Nat :=
  if i.isLabel then i.operands[0]?.bind Operand.asUInt32? else none

namespace RawFunction

/-- A label with the number stands behind the head. -/
def HasLabel (f : RawFunction) (n : Nat) : Prop :=
  ∃ lead head body, f.code = lead ++ head :: body ∧ head.isFuncInfo = true ∧
    ∃ i ∈ body, i.labelNumber? = some n

/-- Behind the head is no label, or the first one there has no number. -/
def Unnumbered (f : RawFunction) : Prop :=
  ∃ lead head body, f.code = lead ++ head :: body ∧ head.isFuncInfo = true ∧
    (body.find? RawInstruction.isLabel).bind RawInstruction.labelNumber? = none

theorem HasLabel.mem_code {f : RawFunction} {n : Nat} (h : f.HasLabel n) :
    ∃ i ∈ f.code, i.labelNumber? = some n := by
  obtain ⟨lead, head, body, hcode, -, i, hi, hn⟩ := h
  refine ⟨i, ?_, hn⟩
  rw [hcode]
  exact List.mem_append_right _ (List.mem_cons_of_mem _ hi)

end RawFunction

namespace Code

open RawInstruction

/-- A function is entered at the first label behind its head, or at 0 for want of a number there. -/
theorem Describes.hasLabel_entry {lead body : List RawInstruction} {head : RawInstruction}
    {f : RawFunction} (h : Describes lead head body f) :
    f.HasLabel f.entry ∨ f.entry = 0 ∧ f.Unnumbered := by
  cases hfind : body.find? isLabel with
  | none =>
    have hnone : ∀ i ∈ body, i.isLabel = false := by simpa using hfind
    refine .inr ⟨h.entry_of_none hnone, lead, head, body, h.code, h.head_isFuncInfo, ?_⟩
    rw [hfind]
    rfl
  | some label =>
    obtain ⟨hlabel, before, after, hsplit, hbefore⟩ := List.find?_eq_some_iff_append.mp hfind
    have hentry : f.entry = label.labelNumber?.getD 0 := by
      rw [h.entry_of_label before label after hsplit (by simpa using hbefore) hlabel,
        labelNumber?, if_pos hlabel]
      rfl
    cases hnumber : label.labelNumber? with
    | none =>
      rw [hnumber] at hentry
      refine .inr ⟨hentry, lead, head, body, h.code, h.head_isFuncInfo, ?_⟩
      rw [hfind]
      exact hnumber
    | some n =>
      rw [hnumber] at hentry
      have hmem : label ∈ body := List.mem_of_find?_eq_some hfind
      refine .inl ⟨lead, head, body, h.code, h.head_isFuncInfo, label, hmem, ?_⟩
      rw [hentry, hnumber]
      rfl

theorem tokenize_of_instructions {t : Tables} {chunk : Bytes} {header : CodeHeader}
    {is : List RawInstruction} (hparse : CodeHeader.parse chunk = .ok header)
    (his : (instructions t chunk header.codeOffset).value = .ok is) :
    (tokenize t chunk).value = .ok (splitFunctions is) := by
  rw [value_tokenize, hparse, ok_bind, his]
  rfl

theorem hasLabel_entry_of_tokenize {t : Tables} {chunk : Bytes} {fs : List RawFunction}
    (h : (tokenize t chunk).value = .ok fs) {f : RawFunction} (hf : f ∈ fs) :
    f.HasLabel f.entry ∨ f.entry = 0 ∧ f.Unnumbered := by
  obtain ⟨header, is, -, -, rfl⟩ := tokenize_eq_ok h
  obtain ⟨s, ⟨lead, head, body, rfl, hlead, hhead, hbody⟩, rfl⟩ :=
    isStretch_of_mem_splitFunctions hf
  exact (describes_functionOf hlead hhead hbody).hasLabel_entry

end Code

namespace CallGraph

/-- An instruction that calls a label calls nothing else. -/
theorem localCall_alone {i : RawInstruction} (h : i.info.has .localCall = true) :
    i.info.has .dynamicCall = false ∧ i.info.has .externalCall = false ∧
      i.info.has .bifCall = false := by
  have htable : ∀ o ∈ Opcode.table, o.has .localCall = true →
      o.has .dynamicCall = false ∧ o.has .externalCall = false ∧ o.has .bifCall = false := by
    decide +kernel
  unfold RawInstruction.info Opcode.describe at h ⊢
  cases hlookup : Opcode.lookup i.opcode with
  | none =>
    rw [hlookup] at h
    cases h
  | some o =>
    rw [hlookup] at h
    exact htable o (List.mem_of_find?_eq_some hlookup) h

theorem entered_of_localCall {module : String} {fs : List RawFunction} {i : RawInstruction}
    {label : Nat} {id : String} (hlocal : i.info.has .localCall = true)
    (hlabel : targetLabel? i = some label) (h : Targets module fs i id) :
    ∃ g ∈ fs, idOf module g = id ∧ g.entry = label := by
  cases h with
  | named _ hcall _ =>
    obtain ⟨-, hexternal, hbif⟩ := localCall_alone hlocal
    simp [hexternal, hbif] at hcall
  | @entered g _ _ _ _ hg =>
    obtain ⟨hsplit, hfirst, rfl, -⟩ := hg
    have hentry : targetLabel? i = some g.entry := targetLabel?_eq_some.mpr ⟨_, _, hsplit, hfirst⟩
    rw [hlabel] at hentry
    exact ⟨g, by simp, rfl, (Option.some.inj hentry).symm⟩

/-- In the code of any chunk, a call to a label leads to a function that has the label behind its
head, or else the label is 0 and the function has no number where it is entered. -/
theorem called_label_in_callee (t : Code.Tables) (chunk : Bytes) (fs : List RawFunction)
    (h : (Code.tokenize t chunk).value = .ok fs) (module : String) (f : RawFunction) (hf : f ∈ fs)
    (i : RawInstruction) (hi : i ∈ f.code) (hlocal : i.info.has .localCall = true)
    (before after : List Operand) (label : Nat)
    (hsplit : i.operands = before ++ .label label :: after) (hfirst : ∀ n, .label n ∉ before)
    (id : String) (hcall : callTarget? (entriesOf module fs) i = some id) :
    (nodeId module f.name f.arity, id) ∈ (ofFunctions module fs).edges ∧
      ∃ g ∈ fs, nodeId module g.name g.arity = id ∧
        (g.HasLabel label ∨ label = 0 ∧ g.Unnumbered) := by
  have htarget := callTarget?_eq_some.mp hcall
  have hlabel : targetLabel? i = some label := targetLabel?_eq_some.mpr ⟨_, _, hsplit, hfirst⟩
  obtain ⟨g, hg, hid, rfl⟩ := entered_of_localCall hlocal hlabel htarget
  refine ⟨mem_edges_ofFunctions.mpr ⟨f, hf, rfl, i, hi, htarget⟩, g, hg, hid, ?_⟩
  exact Code.hasLabel_entry_of_tokenize h hg

-- Two functions, of which the first calls the second at label 4.
theorem called_label_in_callee_next :
    let t : Code.Tables := ⟨⟨["m", "f", "g"]⟩, .empty, some .empty, true⟩
    let chunk : Bytes :=
      [0, 0, 0, 16, 0, 0, 0, 0, 0, 0, 0, 182, 0, 0, 0, 5, 0, 0, 0, 2,
        1, 0x10, 2, 0x12, 0x22, 0x00, 1, 0x20, 6, 0x00, 0x45,
        1, 0x30, 2, 0x12, 0x32, 0x00, 1, 0x40, 19, 3]
    let f : RawFunction := ⟨"f", 0, 2,
      [⟨1, [.unsigned 1]⟩, ⟨2, [.atom "m", .atom "f", .unsigned 0]⟩,
        ⟨1, [.unsigned 2]⟩, ⟨6, [.unsigned 0, .label 4]⟩]⟩
    let g : RawFunction := ⟨"g", 0, 4,
      [⟨1, [.unsigned 3]⟩, ⟨2, [.atom "m", .atom "g", .unsigned 0]⟩,
        ⟨1, [.unsigned 4]⟩, ⟨19, []⟩]⟩
    (Code.tokenize t chunk).value = .ok [f, g] ∧
      ("m.f/0", "m.g/0") ∈ (ofFunctions "m" [f, g]).edges ∧ g.HasLabel 4 := by
  intro t chunk f g
  have hparse : CodeHeader.parse chunk = .ok ⟨0, 182, 5, 2, 20⟩ := rfl
  have his : (Code.instructions t chunk 20).value = .ok (f.code ++ g.code ++ [⟨3, []⟩]) := rfl
  have hfs : (Code.tokenize t chunk).value = .ok [f, g] := Code.tokenize_of_instructions hparse his
  have hcall : callTarget? (entriesOf "m" [f, g]) ⟨6, [.unsigned 0, .label 4]⟩ = some "m.g/0" := by
    decide +kernel +zetaReduce
  have hname : nodeId "m" f.name f.arity = "m.f/0" := by decide +kernel
  obtain ⟨hedge, k, hk, hid, hlabel | ⟨hzero, -⟩⟩ := called_label_in_callee t chunk [f, g] hfs "m" f
    (by simp) ⟨6, [.unsigned 0, .label 4]⟩ (by simp [f]) (by decide +kernel) [.unsigned 0] [] 4 rfl
    (by simp) "m.g/0" hcall
  · refine ⟨hfs, hname ▸ hedge, ?_⟩
    rcases List.mem_cons.mp hk with rfl | hk
    · exact absurd (hname.symm.trans hid) (by decide)
    · rw [List.mem_singleton.mp hk] at hlabel
      exact hlabel
  · cases hzero

-- The function has no label at all, and calls label 0. The call leads back to it.
theorem call_to_missing_label :
    let t : Code.Tables := ⟨⟨["m", "f"]⟩, .empty, some .empty, true⟩
    let chunk : Bytes :=
      [0, 0, 0, 16, 0, 0, 0, 0, 0, 0, 0, 182, 0, 0, 0, 1, 0, 0, 0, 1,
        2, 0x12, 0x22, 0x00, 4, 0x00, 0x05, 19, 3]
    ∃ fs, (Code.tokenize t chunk).value = .ok fs ∧ ∃ f ∈ fs, ∃ i ∈ f.code,
      i.info.has .localCall = true ∧ targetLabel? i = some 0 ∧
        callTarget? (entriesOf "m" fs) i = some "m.f/0" ∧
        ("m.f/0", "m.f/0") ∈ (ofFunctions "m" fs).edges ∧ ∀ g ∈ fs, ¬g.HasLabel 0 := by
  intro t chunk
  let f : RawFunction :=
    ⟨"f", 0, 0, [⟨2, [.atom "m", .atom "f", .unsigned 0]⟩, ⟨4, [.unsigned 0, .label 0]⟩, ⟨19, []⟩]⟩
  have hparse : CodeHeader.parse chunk = .ok ⟨0, 182, 1, 1, 20⟩ := rfl
  have his : (Code.instructions t chunk 20).value = .ok (f.code ++ [⟨3, []⟩]) := rfl
  have hfs : (Code.tokenize t chunk).value = .ok [f] := Code.tokenize_of_instructions hparse his
  have hlabel : ∀ i ∈ f.code, i.labelNumber? = none := by decide +kernel +zetaReduce
  refine ⟨[f], hfs, f, by simp, ⟨4, [.unsigned 0, .label 0]⟩, by simp [f], ?_, ?_, ?_, ?_, ?_⟩
  · decide +kernel
  · rfl
  · decide +kernel +zetaReduce
  · decide +kernel +zetaReduce
  · intro g hg hzero
    rw [List.mem_singleton.mp hg] at hzero
    obtain ⟨i, hi, hn⟩ := hzero.mem_code
    rw [hlabel i hi] at hn
    cases hn

end CallGraph

end BeamScope
