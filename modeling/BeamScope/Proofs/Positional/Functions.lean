import BeamScope.Proofs.Positional.Instructions

/-!
# Functions by position

Code split by positions in the list of its instructions: from each head back over the labels and
line markers before it, and forward to where the next function starts. A function starts at or
before its head and ends behind it, because no head is a label or a line marker, so that no
function can start in front of the head of the one before.
-/

namespace BeamScope.Positional

open RawInstruction Code

/-! ### Splitting -/

/-- The place of the first of the labels and line markers that stand directly before a place. -/
def leadStart (is : List RawInstruction) : Nat → Checked Nat
  | 0 => .ok 0
  | start + 1 => do
    let prev ← index is start
    if prev.isLead then leadStart is start else return start + 1

/-- Where the functions start and where their heads are, with the heads looked for in the part of
the code from place `n` on. -/
def startsFrom (is : List RawInstruction) : List RawInstruction → Nat → Checked (List (Nat × Nat))
  | [], _ => .ok []
  | i :: rest, n =>
    if i.isFuncInfo then do
      let start ← leadStart is n
      let starts ← startsFrom is rest (n + 1)
      return (start, n) :: starts
    else startsFrom is rest (n + 1)

/-- Name and arity from the operands of a head. -/
def headName (operands : List Operand) : String :=
  match operands[1]? with
  | some (Operand.atom name) => name
  | _ => "?"

def headArity (operands : List Operand) : Nat := (operands[2]?.bind Operand.asUInt32?).getD 0

def firstLabel (is : List RawInstruction) : Nat :=
  ((is.find? isLabel).bind fun i => i.operands.head?.bind Operand.asUInt32?).getD 0

/-- The function between two places, with its head at a third. -/
def functionAt (is : List RawInstruction) (start headAt finish : Nat) : Checked RawFunction := do
  let code ← slice is start finish
  let head ← index is headAt
  let lead ← sub headAt start
  let fromHead ← slice code lead code.length
  return ⟨headName head.operands, headArity head.operands, firstLabel fromHead, code⟩

/-- The functions that start at the given places; the last one ends at `stop`, or behind its head. -/
def functionsAt (is : List RawInstruction) (stop : Nat) :
    List (Nat × Nat) → Checked (List RawFunction)
  | [] => .ok []
  | (start, headAt) :: rest => do
    let least ← add headAt 1
    let f ← functionAt is start headAt (max ((rest.head?.map Prod.fst).getD stop) least)
    let fs ← functionsAt is stop rest
    return f :: fs

def splitFunctions (is : List RawInstruction) : Checked (List RawFunction) := do
  let starts ← startsFrom is is 0
  functionsAt is (is.findIdx isCodeEnd) starts

/-! ### Starts -/

theorem index_middle {α : Type} (pre post : List α) (a : α) :
    index (pre ++ a :: post) pre.length = .ok a := index_eq_ok (by simp)

theorem leadStart_eq {front lead : List RawInstruction} (tail : List RawInstruction)
    (hf : ∀ i, front.getLast? = some i → i.isLead = false) (hl : ∀ i ∈ lead, i.isLead = true) :
    leadStart (front ++ lead ++ tail) (front.length + lead.length) = .ok front.length := by
  -- From the last of them back to the first, as the walk goes.
  induction lead using List.reverseRecOn generalizing tail with
  | nil =>
    rcases List.eq_nil_or_concat' front with rfl | ⟨pre, last, rfl⟩
    · rfl
    · have hlast : last.isLead = false := hf last (by simp)
      have hget : index (pre ++ [last] ++ [] ++ tail) pre.length = .ok last := by
        simpa using index_middle pre tail last
      simp only [List.length_append, List.length_singleton, List.length_nil, Nat.add_zero,
        leadStart, hget, checked_ok_bind, hlast, Bool.false_eq_true, if_false]
      rfl
  | append_singleton lead i ih =>
    have hi : i.isLead = true := hl i (by simp)
    have hcode : front ++ (lead ++ [i]) ++ tail = front ++ lead ++ ([i] ++ tail) := by simp
    have hget : index (front ++ lead ++ ([i] ++ tail)) (front.length + lead.length) = .ok i := by
      rw [← List.length_append]
      exact index_middle (front ++ lead) tail i
    rw [hcode, List.length_append, List.length_singleton, ← Nat.add_assoc, leadStart, hget,
      checked_ok_bind, if_pos hi]
    exact ih _ fun j hj => hl j (List.mem_append_left _ hj)

theorem startsFrom_skip (is : List RawInstruction) {xs : List RawInstruction}
    (h : ∀ i ∈ xs, i.isFuncInfo = false) (ys : List RawInstruction) (n : Nat) :
    startsFrom is (xs ++ ys) n = startsFrom is ys (n + xs.length) := by
  induction xs generalizing n with
  | nil => rfl
  | cons x xs ih =>
    have hx : x.isFuncInfo = false := h x (List.mem_cons_self ..)
    rw [List.cons_append, startsFrom, hx, if_neg Bool.false_ne_true,
      ih fun i hi => h i (List.mem_cons_of_mem _ hi), List.length_cons]
    congr 1
    omega

/-- No stretch but the last ends in a label or a line marker: that would belong to the next. -/
theorem last_notLead_cut (is : List RawInstruction) :
    ∀ s ∈ (cut is).segments.dropLast, ∀ i, s.getLast? = some i → i.isLead = false := by
  induction is with
  | nil => simp [cut]
  | cons i is ih =>
    have hdiv := divides_cut is
    change ∀ s ∈ ((cut is).push i).segments.dropLast, _
    cases hf : i.isFuncInfo with
    | true =>
      rw [Cut.push_head hf]
      cases hs : (cut is).segments with
      | nil => simp
      | cons s' rest =>
        intro s hmem j hj
        rw [List.dropLast_cons_cons] at hmem
        rcases List.mem_cons.mp hmem with rfl | hmem
        · cases hfront : (cut is).front with
          | nil =>
            have hij : i = j := by simpa [hfront] using hj
            exact hij ▸ isLead_of_isFuncInfo hf
          | cons k ks =>
            refine hdiv.front_last (by simp [hs]) j ?_
            simpa [hfront] using hj
        · exact ih s (hs ▸ hmem) j hj
    | false =>
      cases ha : (cut is).attached && i.isLead with
      | false =>
        rw [Cut.push_other hf ha]
        exact ih
      | true =>
        simp only [Bool.and_eq_true] at ha
        obtain ⟨-, hne⟩ := hdiv.attached_iff.mp ha.1
        obtain ⟨s', rest, hs⟩ := List.exists_cons_of_ne_nil hne
        rw [Cut.push_lead ha.2 ha.1 hs]
        rw [hs] at ih
        cases rest with
        | nil => simp
        | cons s'' rest =>
          intro s hmem j hj
          rw [List.dropLast_cons_cons] at hmem ih
          rcases List.mem_cons.mp hmem with rfl | hmem
          · have hne' := (hdiv.stretches s' (by simp [hs])).ne_nil
            refine ih s' (List.mem_cons_self ..) j ?_
            rwa [List.getLast?_cons_of_ne_nil hne'] at hj
          · exact ih s (List.mem_cons_of_mem _ hmem) j hj

/-- The starts and the heads of stretches that follow each other from a place on. -/
def marks : Nat → List (List RawInstruction) → List (Nat × Nat)
  | _, [] => []
  | off, s :: rest =>
    (off, off + (s.takeWhile fun i => !i.isFuncInfo).length) :: marks (off + s.length) rest

theorem startsFrom_stretches {segments : List (List RawInstruction)}
    (hs : ∀ s ∈ segments, IsStretch s)
    (hlast : ∀ s ∈ segments.dropLast, ∀ i, s.getLast? = some i → i.isLead = false)
    {front : List RawInstruction}
    (hf : segments ≠ [] → ∀ i, front.getLast? = some i → i.isLead = false) :
    startsFrom (front ++ segments.flatten) segments.flatten front.length =
      .ok (marks front.length segments) := by
  induction segments generalizing front with
  | nil => rfl
  | cons s rest ih =>
    obtain ⟨lead, head, body, rfl, hlead, hhead, hbody⟩ := hs s (List.mem_cons_self ..)
    have hnoHead : ∀ i ∈ lead, i.isFuncInfo = false := fun i hi => isFuncInfo_of_isLead (hlead i hi)
    have hstart : leadStart (front ++ lead ++ (head :: (body ++ rest.flatten)))
        (front.length + lead.length) = .ok front.length :=
      leadStart_eq _ (hf (by simp)) hlead
    have hrest := @ih (fun s hmem => hs s (List.mem_cons_of_mem _ hmem)) (by
        intro s hmem
        refine hlast s ?_
        cases rest with
        | nil => simp at hmem
        | cons s' rest => exact List.mem_cons_of_mem _ hmem)
      (front ++ (lead ++ head :: body)) (by
        intro hne i hi
        obtain ⟨s', rest', rfl⟩ := List.exists_cons_of_ne_nil hne
        refine hlast _ (List.mem_cons_self ..) i ?_
        simpa using hi)
    have hcode : front ++ ((lead ++ head :: body) :: rest).flatten =
        front ++ lead ++ (head :: (body ++ rest.flatten)) := by simp
    have hflat : ((lead ++ head :: body) :: rest).flatten =
        lead ++ (head :: (body ++ rest.flatten)) := by simp
    have hplace : (front ++ (lead ++ head :: body)).length =
        front.length + lead.length + 1 + body.length := by
      simp only [List.length_append, List.length_cons]
      omega
    have hwhole : front ++ (lead ++ head :: body) ++ rest.flatten =
        front ++ lead ++ (head :: (body ++ rest.flatten)) := by simp
    rw [hplace, hwhole] at hrest
    rw [hcode, hflat, startsFrom_skip _ hnoHead, startsFrom, if_pos hhead, hstart, checked_ok_bind,
      startsFrom_skip _ hbody, hrest, checked_ok_bind, marks, takeWhile_head hnoHead hhead]
    congr 3
    simp only [List.length_append, List.length_cons]
    omega

/-! ### Functions -/

theorem functionOf_stretch {lead body : List RawInstruction} {head : RawInstruction}
    (hlead : ∀ i ∈ lead, i.isFuncInfo = false) (hhead : head.isFuncInfo = true) :
    functionOf (lead ++ head :: body) =
      ⟨headName head.operands, headArity head.operands, firstLabel (head :: body),
        lead ++ head :: body⟩ := by
  simp only [functionOf, dropWhile_head hlead hhead]
  rfl

theorem functionAt_eq (front tail : List RawInstruction) {lead body : List RawInstruction}
    {head : RawInstruction} (hlead : ∀ i ∈ lead, i.isFuncInfo = false)
    (hhead : head.isFuncInfo = true) {finish : Nat}
    (hfinish : finish = front.length + (lead ++ head :: body).length) :
    functionAt (front ++ (lead ++ head :: body) ++ tail) front.length (front.length + lead.length)
      finish = .ok (functionOf (lead ++ head :: body)) := by
  have hslice : slice (front ++ (lead ++ head :: body) ++ tail) front.length finish =
      .ok (lead ++ head :: body) := by
    rw [slice_eq_ok (by omega) (by simp only [List.length_append] at hfinish ⊢; omega), hfinish,
      List.append_assoc, List.drop_left, Nat.add_sub_cancel_left, List.take_left]
  have hget : index (front ++ (lead ++ head :: body) ++ tail) (front.length + lead.length) =
      .ok head := by
    have h := index_middle (front ++ lead) (body ++ tail) head
    simpa using h
  have hfrom : slice (lead ++ head :: body) lead.length (lead ++ head :: body).length =
      .ok (head :: body) := by
    rw [slice_to_end (by simp), List.drop_left]
  simp only [functionAt, hslice, hget, sub_eq_ok (Nat.le_add_right front.length lead.length),
    Nat.add_sub_cancel_left, hfrom, checked_ok_bind, functionOf_stretch hlead hhead]
  rfl

theorem findIdx_codeEnd_append {xs : List RawInstruction} (h : ∀ i ∈ xs, i.isCodeEnd = false)
    (ys : List RawInstruction) :
    (xs ++ ys).findIdx isCodeEnd = xs.length + ys.findIdx isCodeEnd := by
  induction xs with
  | nil => simp
  | cons x xs ih =>
    rw [List.cons_append, List.findIdx_cons, h x (List.mem_cons_self ..),
      ih fun i hi => h i (List.mem_cons_of_mem _ hi), List.length_cons]
    simp only [cond_false]
    omega

theorem findIdx_codeEnd (is : List RawInstruction) :
    is.findIdx isCodeEnd = (is.takeWhile fun i => !i.isCodeEnd).length := by
  induction is with
  | nil => rfl
  | cons i is ih =>
    cases hi : i.isCodeEnd with
    | true => simp [List.findIdx_cons, hi]
    | false => simp [List.findIdx_cons, hi, ih]

/-- The last stretch ends at the first end mark, or behind its head if that comes too early. -/
theorem functionAt_last (front body : List RawInstruction) {lead : List RawInstruction}
    {head : RawInstruction} (hlead : ∀ i ∈ lead, i.isLead = true)
    (hhead : head.isFuncInfo = true) :
    functionAt (front ++ (lead ++ head :: body)) front.length (front.length + lead.length)
      (max ((front ++ (lead ++ head :: body)).findIdx isCodeEnd) (front.length + lead.length + 1)) =
      .ok (functionOf (if front.any isCodeEnd then upToHead (lead ++ head :: body)
        else (lead ++ head :: body).takeWhile fun i => !i.isCodeEnd)) := by
  have hnoHead : ∀ i ∈ lead, i.isFuncInfo = false := fun i hi => isFuncInfo_of_isLead (hlead i hi)
  have hbefore : ∀ i ∈ lead ++ [head], i.isCodeEnd = false := by
    intro i hi
    rcases List.mem_append.mp hi with hi | hi
    · exact isCodeEnd_of_isLead (hlead i hi)
    · rw [List.mem_singleton.mp hi]
      exact isCodeEnd_of_isFuncInfo hhead
  have hsplit : lead ++ head :: body = lead ++ [head] ++ body := by simp
  cases hended : front.any isCodeEnd with
  | true =>
    -- The code ended before this stretch, and only its head keeps it from being empty.
    have hstop : (front ++ (lead ++ head :: body)).findIdx isCodeEnd < front.length := by
      have hlt := List.findIdx_lt_length.mpr (List.any_eq_true.mp hended)
      rwa [List.findIdx_append, if_pos hlt]
    have hup : upToHead (lead ++ head :: body) = lead ++ [head] := by
      rw [upToHead, takeWhile_head hnoHead hhead, dropWhile_head hnoHead hhead]
      rfl
    rw [if_pos rfl, hup]
    have hmax : max ((front ++ (lead ++ head :: body)).findIdx isCodeEnd)
        (front.length + lead.length + 1) = front.length + (lead ++ [head]).length := by
      simp only [List.length_append, List.length_singleton]
      omega
    have hf := functionAt_eq front body hnoHead hhead hmax
    rwa [List.append_assoc, ← hsplit] at hf
  | false =>
    have hfront : ∀ i ∈ front, i.isCodeEnd = false := by
      intro i hi
      simpa using List.any_eq_false.mp hended i hi
    have hkeep : (lead ++ head :: body).takeWhile (fun i => !i.isCodeEnd) =
        lead ++ head :: body.takeWhile fun i => !i.isCodeEnd := by
      rw [hsplit, takeWhile_of_forall hbefore]
      simp
    rw [if_neg Bool.false_ne_true, hkeep]
    have hstop : (front ++ (lead ++ head :: body)).findIdx isCodeEnd =
        front.length + (lead ++ head :: body.takeWhile fun i => !i.isCodeEnd).length := by
      rw [findIdx_codeEnd_append hfront, findIdx_codeEnd, hkeep]
    have hmax : max ((front ++ (lead ++ head :: body)).findIdx isCodeEnd)
        (front.length + lead.length + 1) =
          front.length + (lead ++ head :: body.takeWhile fun i => !i.isCodeEnd).length := by
      rw [hstop]
      simp only [List.length_append, List.length_cons]
      omega
    have hf := functionAt_eq front (body.dropWhile fun i => !i.isCodeEnd) hnoHead hhead hmax
    rwa [List.append_assoc, List.append_assoc, List.cons_append, List.takeWhile_append_dropWhile]
      at hf

theorem functionsAt_stretches {segments : List (List RawInstruction)}
    (hs : ∀ s ∈ segments, IsStretch s) {front : List RawInstruction}
    (hlen : (front ++ segments.flatten).length < 2 ^ 64) :
    functionsAt (front ++ segments.flatten) ((front ++ segments.flatten).findIdx isCodeEnd)
      (marks front.length segments) =
      .ok ((closeLast (front.any isCodeEnd) segments).map functionOf) := by
  induction segments generalizing front with
  | nil => rfl
  | cons s rest ih =>
    obtain ⟨lead, head, body, rfl, hlead, hhead, hbody⟩ := hs s (List.mem_cons_self ..)
    have hnoHead : ∀ i ∈ lead, i.isFuncInfo = false := fun i hi => isFuncInfo_of_isLead (hlead i hi)
    have hadd : add (front.length + lead.length) 1 = .ok (front.length + lead.length + 1) := by
      refine add_eq_ok ?_
      simp only [List.flatten_cons, List.length_append, List.length_cons] at hlen
      omega
    rw [marks, takeWhile_head hnoHead hhead, functionsAt, hadd, checked_ok_bind]
    cases rest with
    | nil =>
      have hlast := functionAt_last front body hlead hhead
      simp only [marks, List.head?_nil, Option.map_none, Option.getD_none, List.flatten_cons,
        List.flatten_nil, List.append_nil, functionsAt, checked_ok_bind, hlast]
      rfl
    | cons s' rest =>
      have hcode : front ++ ((lead ++ head :: body) :: s' :: rest).flatten =
          front ++ (lead ++ head :: body) ++ (s' :: rest).flatten := by
        rw [List.flatten_cons, ← List.append_assoc]
      have hnext : ((marks (front.length + (lead ++ head :: body).length) (s' :: rest)).head?.map
          Prod.fst) = some (front.length + (lead ++ head :: body).length) := rfl
      have hmax : max (front.length + (lead ++ head :: body).length)
          (front.length + lead.length + 1) = front.length + (lead ++ head :: body).length := by
        simp only [List.length_append, List.length_cons]
        omega
      rw [hcode] at hlen ⊢
      have hrest := ih (fun s hmem => hs s (List.mem_cons_of_mem _ hmem)) hlen
      rw [List.length_append] at hrest
      rw [hnext, Option.getD_some, hmax,
        functionAt_eq front (s' :: rest).flatten hnoHead hhead rfl, checked_ok_bind, hrest,
        checked_ok_bind, List.any_append]
      rfl

theorem splitFunctions_eq {is : List RawInstruction} (hlen : is.length < 2 ^ 64) :
    splitFunctions is = .ok (Code.splitFunctions is) := by
  have hdiv := divides_cut is
  have hstarts : startsFrom is is 0 = .ok (marks (cut is).front.length (cut is).segments) := by
    have h := startsFrom_stretches hdiv.stretches (last_notLead_cut is) hdiv.front_last
    rw [hdiv.whole] at h
    have hskip := startsFrom_skip is hdiv.front_noHead (cut is).segments.flatten 0
    rw [hdiv.whole, Nat.zero_add] at hskip
    rw [hskip, h]
  have hinside : ((cut is).front ++ (cut is).segments.flatten).length < 2 ^ 64 := by
    rwa [hdiv.whole]
  have hfunctions := functionsAt_stretches hdiv.stretches hinside
  rw [hdiv.whole] at hfunctions
  rw [splitFunctions, hstarts, checked_ok_bind, hfunctions]
  rfl

/-! ### Code chunks -/

/-- A whole code chunk: the numbers of functions declared and found are only compared. -/
def tokenize (t : Tables) (chunk : Bytes) : Checked (List RawFunction) := do
  let header ← parseCodeHeader chunk
  let is ← instructions t chunk header.codeOffset
  splitFunctions is

theorem length_of_stream {t : Tables} {data : Bytes} {steps pos : Nat} {is : List RawInstruction}
    (h : stream t data steps pos = .ok is) : is.length ≤ steps := by
  induction steps generalizing pos is with
  | zero => cases h
  | succ steps ih =>
    rw [stream] at h
    split at h
    · obtain ⟨found, -, h⟩ := bind_eq_ok h
      dsimp only at h
      split at h
      · cases h
        exact Nat.succ_le_succ (Nat.zero_le _)
      · obtain ⟨tail, hr, h⟩ := bind_eq_ok h
        cases h
        exact Nat.succ_le_succ (ih hr)
    · cases h
      exact Nat.zero_le _

theorem tokenize_eq (t : Tables) (ht : t.checkCounts = true) {chunk : Bytes}
    (hlen : chunk.length < 2 ^ 63) :
    tokenize t chunk = returned (Code.tokenize t chunk).value := by
  rw [tokenize, parseCodeHeader_eq hlen, value_tokenize, returned_bind]
  congr 1
  funext header
  rw [returned_bind, ← instructions_eq t ht hlen]
  cases hi : instructions t chunk header.codeOffset with
  | error stop => rfl
  | ok is =>
    have hle : is.length ≤ chunk.length + 1 := length_of_stream hi
    exact splitFunctions_eq (by omega)

end BeamScope.Positional
