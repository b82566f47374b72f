import Mathlib.Data.List.DropRight
import BeamScope.Code.Functions
import BeamScope.Proofs.Assembly

/-!
# Every instruction of the code belongs to one function

A stream is cut into what stands before the first function and one stretch for each function. The
stretches follow each other without gaps, each has one head, and before the head only labels and
line markers. Since the end mark stands only last, the functions together are the stream from the
labels and line markers before the first head up to the end mark.
-/

namespace BeamScope

namespace RawInstruction

theorem isLead_of_isFuncInfo {i : RawInstruction} (h : i.isFuncInfo = true) : i.isLead = false := by
  have ho : i.opcode = Opcode.funcInfo := by simpa [isFuncInfo] using h
  simp only [isLead, isLabel, info, ho]
  decide +kernel

theorem isFuncInfo_of_isLead {i : RawInstruction} (h : i.isLead = true) : i.isFuncInfo = false := by
  cases hf : i.isFuncInfo with
  | false => rfl
  | true => exact absurd (isLead_of_isFuncInfo hf) (by simp [h])

theorem isCodeEnd_of_isLead {i : RawInstruction} (h : i.isLead = true) : i.isCodeEnd = false := by
  rw [Bool.eq_false_iff]
  intro he
  have ho : i.opcode = Opcode.codeEnd := by simpa [isCodeEnd] using he
  revert h
  simp only [isLead, isLabel, info, ho]
  decide +kernel

theorem isCodeEnd_of_isFuncInfo {i : RawInstruction} (h : i.isFuncInfo = true) :
    i.isCodeEnd = false := by
  have ho : i.opcode = Opcode.funcInfo := by simpa [isFuncInfo] using h
  simp only [isCodeEnd, ho]
  decide

end RawInstruction

namespace Code

open RawInstruction

/-- The part of a stream that functions are made of: from the labels and line markers directly
before the first head up to the end mark, and nothing if there is no head. -/
def functionPart (is : List RawInstruction) : List RawInstruction :=
  match is.dropWhile fun i => !i.isFuncInfo with
  | [] => []
  | head :: rest =>
    ((is.takeWhile fun i => !i.isFuncInfo).rtakeWhile isLead ++ head :: rest).takeWhile
      fun i => !i.isCodeEnd

/-- A stretch with one head, and only labels and line markers before it. -/
def IsStretch (s : List RawInstruction) : Prop :=
  ∃ lead head body, s = lead ++ head :: body ∧ (∀ i ∈ lead, i.isLead = true) ∧
    head.isFuncInfo = true ∧ ∀ i ∈ body, i.isFuncInfo = false

/-! ### Cutting -/

/-- What makes a cut the cut of a stream. -/
structure Cut.Divides (c : Cut) (is : List RawInstruction) : Prop where
  whole : c.front ++ c.segments.flatten = is
  front_noHead : ∀ i ∈ c.front, i.isFuncInfo = false
  stretches : ∀ s ∈ c.segments, IsStretch s
  attached_iff : c.attached = true ↔ c.front = [] ∧ c.segments ≠ []
  -- The first stretch takes in all that may stand before its head.
  front_last : c.segments ≠ [] → ∀ i, c.front.getLast? = some i → i.isLead = false

theorem Cut.push_head {i : RawInstruction} (hi : i.isFuncInfo = true) (c : Cut) :
    c.push i = ⟨[], (i :: c.front) :: c.segments, true⟩ := by
  simp only [Cut.push, hi, if_true]

theorem Cut.push_lead {i : RawInstruction} (hi : i.isLead = true) {c : Cut}
    (hc : c.attached = true) {s : List RawInstruction} {rest : List (List RawInstruction)}
    (hs : c.segments = s :: rest) : c.push i = ⟨[], (i :: s) :: rest, true⟩ := by
  simp [Cut.push, isFuncInfo_of_isLead hi, hi, hc, hs]

theorem Cut.push_other {i : RawInstruction} (hf : i.isFuncInfo = false) {c : Cut}
    (hc : (c.attached && i.isLead) = false) :
    c.push i = ⟨i :: c.front, c.segments, false⟩ := by
  simp [Cut.push, hf, hc]

namespace Cut.Divides

variable {c : Cut} {is : List RawInstruction} {i : RawInstruction}

theorem push_head (h : c.Divides is) (hf : i.isFuncInfo = true) :
    (c.push i).Divides (i :: is) := by
  rw [Cut.push_head hf]
  refine ⟨?_, ?_, ?_, ?_, ?_⟩
  · simp [← h.whole]
  · simp
  · intro s hs
    cases List.mem_cons.mp hs with
    | inl he => exact ⟨[], i, c.front, he, by simp, hf, h.front_noHead⟩
    | inr hm => exact h.stretches s hm
  · simp
  · simp

theorem push_lead (h : c.Divides is) (hi : i.isLead = true) (ha : c.attached = true) :
    (c.push i).Divides (i :: is) := by
  obtain ⟨hfront, hne⟩ := h.attached_iff.mp ha
  obtain ⟨s, rest, hs⟩ := List.exists_cons_of_ne_nil hne
  have hfirst := h.stretches s (by simp [hs])
  rw [Cut.push_lead hi ha hs]
  refine ⟨?_, ?_, ?_, ?_, ?_⟩
  · simp [← h.whole, hfront, hs]
  · simp
  · intro s' hs'
    cases List.mem_cons.mp hs' with
    | inl he =>
      obtain ⟨lead, head, body, hsplit, hlead, hhead, hbody⟩ := hfirst
      refine ⟨i :: lead, head, body, by rw [he, hsplit]; rfl, ?_, hhead, hbody⟩
      intro j hj
      cases List.mem_cons.mp hj with
      | inl he => exact he ▸ hi
      | inr hm => exact hlead j hm
    | inr hm => exact h.stretches s' (by rw [hs]; exact List.mem_cons_of_mem _ hm)
  · simp
  · simp

theorem push_other (h : c.Divides is) (hf : i.isFuncInfo = false)
    (hc : (c.attached && i.isLead) = false) : (c.push i).Divides (i :: is) := by
  rw [Cut.push_other hf hc]
  refine ⟨?_, ?_, h.stretches, ?_, ?_⟩
  · simp [← h.whole]
  · intro j hj
    cases List.mem_cons.mp hj with
    | inl he => exact he ▸ hf
    | inr hm => exact h.front_noHead j hm
  · simp
  · intro hs j hj
    cases hfront : c.front with
    | nil =>
      -- The cut was attached, so only an instruction that is no lead gets here.
      have hat : c.attached = true := h.attached_iff.mpr ⟨hfront, hs⟩
      have hji : i = j := by simpa [hfront] using hj
      simpa [hat, hji] using hc
    | cons k ks =>
      refine h.front_last hs j ?_
      simpa [hfront] using hj

theorem push (h : c.Divides is) (i : RawInstruction) : (c.push i).Divides (i :: is) := by
  cases hf : i.isFuncInfo with
  | true => exact h.push_head hf
  | false =>
    cases ha : c.attached && i.isLead with
    | false => exact h.push_other hf ha
    | true =>
      simp only [Bool.and_eq_true] at ha
      exact h.push_lead ha.2 ha.1

end Cut.Divides

theorem divides_cut (is : List RawInstruction) : (cut is).Divides is := by
  induction is with
  | nil =>
    refine ⟨rfl, ?_, ?_, ?_, ?_⟩ <;> simp [cut]
  | cons i is ih => exact ih.push i

/-! ### The end mark -/

/-- The end mark stands only last. -/
def EndsLast (is : List RawInstruction) : Prop := ∀ i ∈ is.dropLast, i.isCodeEnd = false

theorem EndsLast.cons {i : RawInstruction} (hi : i.isCodeEnd = false) {is : List RawInstruction}
    (h : EndsLast is) : EndsLast (i :: is) := by
  intro j hj
  cases is with
  | nil => simp at hj
  | cons k ks =>
    rw [List.dropLast_cons_cons] at hj
    cases List.mem_cons.mp hj with
    | inl he => exact he ▸ hi
    | inr hm => exact h j hm

theorem EndsLast.left {is js : List RawInstruction} (h : EndsLast (is ++ js)) (hj : js ≠ []) :
    ∀ i ∈ is, i.isCodeEnd = false := by
  intro i hi
  refine h i ?_
  rw [List.dropLast_append_of_ne_nil hj]
  exact List.mem_append_left _ hi

theorem EndsLast.right {is js : List RawInstruction} (h : EndsLast (is ++ js)) : EndsLast js := by
  intro i hi
  have hj : js ≠ [] := by
    intro hn
    simp [hn] at hi
  refine h i ?_
  rw [List.dropLast_append_of_ne_nil hj]
  exact List.mem_append_right _ hi

theorem endsLast_stream (t : Tables) (fuel : Nat) (c : Cursor) :
    EndsLast ((stream t fuel c).items.map Prod.snd) := by
  induction fuel generalizing c with
  | zero => simp [EndsLast, stream]
  | succ fuel ih =>
    simp only [stream]
    split
    · simp [EndsLast]
    · split
      · simp [EndsLast]
      · next i after _ =>
        cases he : i.isCodeEnd with
        | true => simp [EndsLast]
        | false => exact EndsLast.cons he (ih after)

theorem EndsLast.map_withImport {is : List RawInstruction} (h : EndsLast is) (t : Tables) :
    EndsLast (is.map (withImport t)) := by
  intro j hj
  rw [← List.map_dropLast] at hj
  obtain ⟨i, hi, rfl⟩ := List.mem_map.mp hj
  rw [isCodeEnd, opcode_withImport]
  exact h i hi

/-- Reading stops at the end mark. -/
theorem endsLast_of_instructions {t : Tables} {data : Bytes} {offset : Nat}
    {is : List RawInstruction} (h : (instructions t data offset).value = .ok is) :
    EndsLast is := by
  rw [value_instructions] at h
  simp only [Run.toExcept] at h
  split at h
  · cases h
    exact (endsLast_stream t _ _).map_withImport t
  · cases h

theorem IsStretch.ne_nil {s : List RawInstruction} (h : IsStretch s) : s ≠ [] := by
  obtain ⟨lead, head, body, rfl, -⟩ := h
  simp

theorem any_isCodeEnd_of_forall {is : List RawInstruction} (h : ∀ i ∈ is, i.isCodeEnd = false) :
    is.any isCodeEnd = false := by
  rw [List.any_eq_false]
  intro i hi
  simp [h i hi]

theorem takeWhile_of_forall {is : List RawInstruction} (h : ∀ i ∈ is, i.isCodeEnd = false)
    (js : List RawInstruction) :
    (is ++ js).takeWhile (fun i => !i.isCodeEnd) = is ++ js.takeWhile fun i => !i.isCodeEnd := by
  refine List.takeWhile_append_of_pos ?_
  intro i hi
  simp [h i hi]

theorem flatten_closeLast {segments : List (List RawInstruction)}
    (hs : ∀ s ∈ segments, IsStretch s) (he : EndsLast segments.flatten) :
    (closeLast false segments).flatten =
      segments.flatten.takeWhile fun i => !i.isCodeEnd := by
  induction segments with
  | nil => rfl
  | cons s rest ih =>
    cases rest with
    | nil => simp [closeLast]
    | cons s' rest =>
      have hne : (s' :: rest).flatten ≠ [] := by
        have hs' := (hs s' (by simp)).ne_nil
        simp [hs']
      rw [List.flatten_cons] at he ⊢
      have hend := he.left hne
      have hrest := ih (fun x hx => hs x (List.mem_cons_of_mem _ hx)) he.right
      rw [takeWhile_of_forall hend, ← hrest]
      simp [closeLast, any_isCodeEnd_of_forall hend]

/-! ### The functions together -/

theorem takeWhile_head {pre : List RawInstruction} (hp : ∀ i ∈ pre, i.isFuncInfo = false)
    {head : RawInstruction} (hh : head.isFuncInfo = true) (rest : List RawInstruction) :
    (pre ++ head :: rest).takeWhile (fun i => !i.isFuncInfo) = pre := by
  rw [List.takeWhile_append_of_pos (by simpa using hp)]
  simp [hh]

theorem dropWhile_head {pre : List RawInstruction} (hp : ∀ i ∈ pre, i.isFuncInfo = false)
    {head : RawInstruction} (hh : head.isFuncInfo = true) (rest : List RawInstruction) :
    (pre ++ head :: rest).dropWhile (fun i => !i.isFuncInfo) = head :: rest := by
  rw [List.dropWhile_append_of_pos (by simpa using hp)]
  simp [hh]

theorem rtakeWhile_lead {front lead : List RawInstruction}
    (hf : ∀ i, front.getLast? = some i → i.isLead = false) (hl : ∀ i ∈ lead, i.isLead = true) :
    (front ++ lead).rtakeWhile isLead = lead := by
  induction lead using List.reverseRecOn with
  | nil =>
    rw [List.append_nil, List.rtakeWhile_eq_nil_iff]
    intro hne
    simp [hf _ (List.getLast?_eq_some_getLast hne)]
  | append_singleton lead i ih =>
    have hi : i.isLead = true := hl i (by simp)
    rw [← List.append_assoc, List.rtakeWhile_concat_pos isLead _ i hi,
      ih fun j hj => hl j (List.mem_append_left _ hj)]

theorem functionPart_eq_nil {is : List RawInstruction} (h : ∀ i ∈ is, i.isFuncInfo = false) :
    functionPart is = [] := by
  have hd : (is.dropWhile fun i => !i.isFuncInfo) = [] := by
    simpa using h
  simp only [functionPart, hd]

theorem Cut.Divides.functionPart_eq {c : Cut} {is : List RawInstruction} (h : c.Divides is) :
    functionPart is = c.segments.flatten.takeWhile fun i => !i.isCodeEnd := by
  cases hc : c.segments with
  | nil =>
    have hfront : c.front = is := by simpa [hc] using h.whole
    rw [functionPart_eq_nil (hfront ▸ h.front_noHead)]
    rfl
  | cons s rest =>
    obtain ⟨lead, head, body, hs, hlead, hhead, -⟩ := h.stretches s (by simp [hc])
    have his : is = (c.front ++ lead) ++ head :: (body ++ rest.flatten) := by
      simp [← h.whole, hc, hs]
    have hpre : ∀ i ∈ c.front ++ lead, i.isFuncInfo = false := by
      intro i hi
      cases List.mem_append.mp hi with
      | inl hf => exact h.front_noHead i hf
      | inr hl => exact isFuncInfo_of_isLead (hlead i hl)
    have hlast := h.front_last (by simp [hc])
    rw [his]
    simp only [functionPart, dropWhile_head hpre hhead, takeWhile_head hpre hhead,
      rtakeWhile_lead hlast hlead]
    simp [hs]

theorem flatMap_code_splitFunctions {is : List RawInstruction} (h : EndsLast is) :
    (splitFunctions is).flatMap RawFunction.code = functionPart is := by
  have hcut := divides_cut is
  have hcode (segments : List (List RawInstruction)) :
      (segments.map functionOf).flatMap RawFunction.code = segments.flatten := by
    rw [List.flatMap_map]
    exact List.flatMap_id'
  rw [splitFunctions, hcode, hcut.functionPart_eq]
  rw [← hcut.whole] at h
  cases hs : (cut is).segments with
  | nil => rfl
  | cons s rest =>
    have hne : (cut is).segments.flatten ≠ [] := by
      have := (hcut.stretches s (by simp [hs])).ne_nil
      simp [hs, this]
    rw [any_isCodeEnd_of_forall (h.left hne), ← hs]
    exact flatten_closeLast hcut.stretches h.right

/-- Notes apart, a code chunk is read, then split. -/
theorem value_tokenize (t : Tables) (chunk : Bytes) :
    (tokenize t chunk).value = do
      let header ← CodeHeader.parse chunk
      let is ← (instructions t chunk header.codeOffset).value
      return splitFunctions is := by
  unfold tokenize
  cases CodeHeader.parse chunk with
  | error e => rfl
  | ok header =>
    -- Each branch only decides whether a note is made.
    cases hi : (instructions t chunk header.codeOffset).value with
    | error e =>
      simp only [ok_bind, hi]
      split <;> simp only [Noted.value_bind, hi] <;> rfl
    | ok is =>
      simp only [ok_bind, hi]
      split <;> simp only [Noted.value_bind, hi] <;> split <;> rfl

theorem tokenize_eq_ok {t : Tables} {chunk : Bytes} {fs : List RawFunction}
    (h : (tokenize t chunk).value = .ok fs) :
    ∃ header is, CodeHeader.parse chunk = .ok header ∧
      (instructions t chunk header.codeOffset).value = .ok is ∧ fs = splitFunctions is := by
  rw [value_tokenize] at h
  cases hparse : CodeHeader.parse chunk with
  | error e =>
    rw [hparse] at h
    cases h
  | ok header =>
    rw [hparse, ok_bind] at h
    cases his : (instructions t chunk header.codeOffset).value with
    | error e =>
      rw [his] at h
      cases h
    | ok is =>
      rw [his] at h
      cases h
      exact ⟨header, is, rfl, his, rfl⟩

end Code

end BeamScope
