import BeamScope.Proofs.FunctionSplit

/-!
# Each function has one head and is described by it

Splitting yields one function for each head in the code, and every function stays a stretch with
one head: where the end mark cuts the last one short, its head is kept. The name, arity and entry of
a function are read from its own stretch.
-/

namespace BeamScope

/-- The number of 32 bits that stands at a place among the operands; 0 if there is none. -/
def RawInstruction.numberAt (i : RawInstruction) (place : Nat) : Nat :=
  (i.operands[place]?.bind Operand.asUInt32?).getD 0

namespace Code

open RawInstruction

/-- `f` is the function of the stretch `lead ++ head :: body`. -/
structure Describes (lead : List RawInstruction) (head : RawInstruction)
    (body : List RawInstruction) (f : RawFunction) : Prop where
  code : f.code = lead ++ head :: body
  lead_isLead : ∀ i ∈ lead, i.isLead = true
  head_isFuncInfo : head.isFuncInfo = true
  body_noHead : ∀ i ∈ body, i.isFuncInfo = false
  name_of_atom : ∀ a, head.operands[1]? = some (.atom a) → f.name = a
  name_of_other : (∀ a, head.operands[1]? ≠ some (.atom a)) → f.name = "?"
  arity : f.arity = head.numberAt 2
  entry_of_label : ∀ before label after, body = before ++ label :: after →
    (∀ i ∈ before, i.isLabel = false) → label.isLabel = true → f.entry = label.numberAt 0
  entry_of_none : (∀ i ∈ body, i.isLabel = false) → f.entry = 0

/-! ### Stretches -/

namespace IsStretch

variable {s : List RawInstruction}

theorem countP_isFuncInfo (h : IsStretch s) : s.countP isFuncInfo = 1 := by
  obtain ⟨lead, head, body, rfl, hlead, hhead, hbody⟩ := h
  have hl : lead.countP isFuncInfo = 0 := by
    rw [List.countP_eq_zero]
    intro i hi
    simp [isFuncInfo_of_isLead (hlead i hi)]
  have hb : body.countP isFuncInfo = 0 := by
    rw [List.countP_eq_zero]
    intro i hi
    simp [hbody i hi]
  rw [List.countP_append, List.countP_cons_of_pos hhead, hl, hb]

theorem upToHead (h : IsStretch s) : IsStretch (upToHead s) := by
  obtain ⟨lead, head, body, rfl, hlead, hhead, -⟩ := h
  have hnoHead : ∀ i ∈ lead, i.isFuncInfo = false := fun i hi => isFuncInfo_of_isLead (hlead i hi)
  refine ⟨lead, head, [], ?_, hlead, hhead, by simp⟩
  rw [Code.upToHead, takeWhile_head hnoHead hhead, dropWhile_head hnoHead hhead]
  rfl

theorem takeWhile_notCodeEnd (h : IsStretch s) : IsStretch (s.takeWhile fun i => !i.isCodeEnd) := by
  obtain ⟨lead, head, body, rfl, hlead, hhead, hbody⟩ := h
  refine ⟨lead, head, body.takeWhile fun i => !i.isCodeEnd, ?_, hlead, hhead, ?_⟩
  · rw [takeWhile_of_forall fun i hi => isCodeEnd_of_isLead (hlead i hi),
      List.takeWhile_cons_of_pos (by simp [isCodeEnd_of_isFuncInfo hhead])]
  · intro i hi
    exact hbody i (List.takeWhile_subset _ hi)

end IsStretch

/-! ### Descriptions -/

theorem entry_functionOf {lead body : List RawInstruction} {head : RawInstruction}
    (hlead : ∀ i ∈ lead, i.isFuncInfo = false) (hhead : head.isFuncInfo = true) :
    (functionOf (lead ++ head :: body)).entry =
      ((body.find? isLabel).map fun i => i.numberAt 0).getD 0 := by
  have hlabel : head.isLabel = false := by
    have hl := isLead_of_isFuncInfo hhead
    rw [isLead, Bool.or_eq_false_iff] at hl
    exact hl.1
  simp only [functionOf, dropWhile_head hlead hhead, List.find?_cons, hlabel]
  cases body.find? isLabel with
  | none => rfl
  | some i => simp [numberAt, List.head?_eq_getElem?]

theorem describes_functionOf {lead body : List RawInstruction} {head : RawInstruction}
    (hlead : ∀ i ∈ lead, i.isLead = true) (hhead : head.isFuncInfo = true)
    (hbody : ∀ i ∈ body, i.isFuncInfo = false) :
    Describes lead head body (functionOf (lead ++ head :: body)) := by
  have hnoHead : ∀ i ∈ lead, i.isFuncInfo = false := fun i hi => isFuncInfo_of_isLead (hlead i hi)
  have hentry : (functionOf (lead ++ head :: body)).entry =
      ((body.find? isLabel).map fun i => i.numberAt 0).getD 0 := entry_functionOf hnoHead hhead
  refine ⟨rfl, hlead, hhead, hbody, ?_, ?_, ?_, ?_, ?_⟩
  · intro a ha
    simp [functionOf, dropWhile_head hnoHead hhead, ha]
  · intro hother
    simp only [functionOf, dropWhile_head hnoHead hhead, List.head?_cons, Option.map_some,
      Option.getD_some]
  · simp [functionOf, dropWhile_head hnoHead hhead, numberAt]
  · intro before label after hsplit hbefore hlabel
    have hfind : body.find? isLabel = some label := by
      rw [List.find?_eq_some_iff_append]
      refine ⟨hlabel, before, after, hsplit, ?_⟩
      intro i hi
      simp [hbefore i hi]
    rw [hentry, hfind]
    rfl
  · intro hnone
    have hfind : body.find? isLabel = none := by
      rw [List.find?_eq_none]
      intro i hi
      simp [hnone i hi]
    rw [hentry, hfind]
    rfl

/-! ### The functions of a stream -/

theorem length_closeLast (ended : Bool) (segments : List (List RawInstruction)) :
    (closeLast ended segments).length = segments.length := by
  induction segments generalizing ended with
  | nil => rfl
  | cons s rest ih =>
    cases rest with
    | nil => rfl
    | cons s' rest => simp [closeLast, ih]

theorem isStretch_closeLast (ended : Bool) {segments : List (List RawInstruction)}
    (h : ∀ s ∈ segments, IsStretch s) : ∀ s ∈ closeLast ended segments, IsStretch s := by
  induction segments generalizing ended with
  | nil => simp [closeLast]
  | cons s rest ih =>
    have hs := h s (List.mem_cons_self ..)
    cases rest with
    | nil =>
      intro s' hs'
      rw [closeLast, List.mem_singleton] at hs'
      subst hs'
      cases ended with
      | true => exact hs.upToHead
      | false => exact hs.takeWhile_notCodeEnd
    | cons s' rest =>
      intro s'' hs''
      rcases List.mem_cons.mp hs'' with rfl | hm
      · exact hs
      · exact ih _ (fun x hx => h x (List.mem_cons_of_mem _ hx)) s'' hm

theorem isStretch_of_mem_splitFunctions {is : List RawInstruction} {f : RawFunction}
    (h : f ∈ splitFunctions is) : ∃ s, IsStretch s ∧ f = functionOf s := by
  obtain ⟨s, hs, rfl⟩ := List.mem_map.mp h
  exact ⟨s, isStretch_closeLast _ (divides_cut is).stretches s hs, rfl⟩

theorem countP_flatten_stretches {segments : List (List RawInstruction)}
    (h : ∀ s ∈ segments, IsStretch s) : segments.flatten.countP isFuncInfo = segments.length := by
  induction segments with
  | nil => rfl
  | cons s rest ih =>
    have hs := (h s (List.mem_cons_self ..)).countP_isFuncInfo
    have hrest := ih fun x hx => h x (List.mem_cons_of_mem _ hx)
    rw [List.flatten_cons, List.countP_append, hs, hrest, List.length_cons, Nat.add_comm]

theorem length_splitFunctions (is : List RawInstruction) :
    (splitFunctions is).length = is.countP isFuncInfo := by
  have hcut := divides_cut is
  have hfront : (cut is).front.countP isFuncInfo = 0 := by
    rw [List.countP_eq_zero]
    intro i hi
    simp [hcut.front_noHead i hi]
  calc (splitFunctions is).length
      = (cut is).segments.length := by simp [splitFunctions, length_closeLast]
    _ = (cut is).segments.flatten.countP isFuncInfo :=
        (countP_flatten_stretches hcut.stretches).symm
    _ = ((cut is).front ++ (cut is).segments.flatten).countP isFuncInfo := by
        rw [List.countP_append, hfront, Nat.zero_add]
    _ = is.countP isFuncInfo := by rw [hcut.whole]

/-- Reading yields streams with the end mark only last, and splitting divides every such stream:
there is a function for each head, the functions one behind the other are the part of the stream
that functions are made of, and each has one head, before which only labels and line markers stand,
and is described by it. -/
theorem splitFunctions_divides :
    (∀ t data offset is, (instructions t data offset).value = .ok is → EndsLast is) ∧
      ∀ is, EndsLast is →
        (splitFunctions is).length = is.countP isFuncInfo ∧
          (splitFunctions is).flatMap RawFunction.code = functionPart is ∧
          ∀ f ∈ splitFunctions is,
            f.code.countP isFuncInfo = 1 ∧ ∃ lead head body, Describes lead head body f := by
  refine ⟨fun t data offset is his => endsLast_of_instructions his, ?_⟩
  intro is h
  refine ⟨length_splitFunctions is, flatMap_code_splitFunctions h, ?_⟩
  intro f hf
  obtain ⟨s, hs, rfl⟩ := isStretch_of_mem_splitFunctions hf
  refine ⟨hs.countP_isFuncInfo, ?_⟩
  obtain ⟨lead, head, body, rfl, hlead, hhead, hbody⟩ := hs
  exact ⟨lead, head, body, describes_functionOf hlead hhead hbody⟩

-- An instruction before the first function, a label that the next head takes away from the first
-- function, two heads one behind the other, and numbers that are none or too great.
theorem splitFunctions_divides_three_heads :
    let t : Tables := ⟨⟨["m", "f", "g"]⟩, .empty, none, true⟩
    let data : Bytes :=
      [19, 1, 0x10, 153, 0x10, 2, 0x12, 0x22, 0x10, 1, 0x20, 2, 0x12, 0x51, 0x03,
        2, 0x12, 0x32, 0x78, 1, 0, 0, 0, 0, 1, 0x70, 19, 3]
    let is : List RawInstruction :=
      [⟨19, []⟩, ⟨1, [.unsigned 1]⟩, ⟨153, [.unsigned 1]⟩,
        ⟨2, [.atom "m", .atom "f", .unsigned 1]⟩, ⟨1, [.unsigned 2]⟩,
        ⟨2, [.atom "m", .integer 5, .x 0]⟩, ⟨2, [.atom "m", .atom "g", .unsigned (2 ^ 32)]⟩,
        ⟨1, [.unsigned 7]⟩, ⟨19, []⟩, ⟨3, []⟩]
    (instructions t data 0).value = .ok is ∧ EndsLast is ∧ (splitFunctions is).length = 3 ∧
      ((splitFunctions is).flatMap RawFunction.code).map RawInstruction.opcode =
        [1, 153, 2, 1, 2, 2, 1, 19] ∧
      (∀ f ∈ splitFunctions is,
        f.code.countP isFuncInfo = 1 ∧ ∃ lead head body, Describes lead head body f) ∧
      (splitFunctions is).map (fun f => (f.name, f.arity, f.entry)) =
        [("f", 1, 0), ("?", 0, 0), ("g", 0, 7)] := by
  intro t data is
  have hread : (instructions t data 0).value = .ok is := rfl
  have hends : EndsLast is := splitFunctions_divides.1 t data 0 is hread
  obtain ⟨hlength, hcode, hparts⟩ := splitFunctions_divides.2 is hends
  refine ⟨hread, hends, ?_, ?_, hparts, ?_⟩
  · rw [hlength]
    decide +kernel +zetaReduce
  · rw [hcode]
    decide +kernel +zetaReduce
  · decide +kernel +zetaReduce

end Code

end BeamScope
