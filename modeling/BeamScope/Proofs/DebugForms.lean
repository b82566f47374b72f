import BeamScope.Container

/-!
# Where abstract code is found

Two chunks of a module file may carry its abstract code: the debug chunk, framed by the name of the
compiler's backend, and the older chunk. The older one is asked only if there is no debug chunk, or
an empty one. A debug chunk that holds something else hides it: then no forms are found, although
the file has them.
-/

namespace BeamScope.Container

/-- A list that ends in the empty list, with these elements. -/
inductive ProperList : Term → List Term → Prop where
  | list (items : List Term) : ProperList (.list items) items
  | nil : ProperList .nil []

inductive DebugFrame : Term → List Term → Prop where
  | intro {items opts : Term} {forms : List Term} (h : ProperList items forms) :
    DebugFrame
      (.tuple [.atom "debug_info_v1", .atom "erl_abstract_code", .tuple [items, opts]]) forms

inductive RawFrame : Term → List Term → Prop where
  | intro {items : Term} {forms : List Term} (h : ProperList items forms) :
    RawFrame (.tuple [.atom "raw_abstract_v1", items]) forms

/-- The chunk is there and holds a term. -/
def Holds (d : Term.Decoder) (f : Container) (id : String) (t : Term) : Prop :=
  ∃ payload decoded, f.chunk? id = some payload ∧
    Term.decode d payload = .ok decoded ∧ decoded.term = t

/-- The chunk holds forms in a frame. -/
def Carries (d : Term.Decoder) (f : Container) (id : String) (frame : Term → List Term → Prop)
    (forms : List Term) : Prop :=
  ∃ t, f.Holds d id t ∧ frame t forms

/-- The chunk holds a term, but no forms. -/
def HoldsOther (d : Term.Decoder) (f : Container) (id : String)
    (frame : Term → List Term → Prop) : Prop :=
  ∃ t, f.Holds d id t ∧ ∀ forms, ¬frame t forms

/-- The chunk is not there, or has no bytes. -/
def Vacant (f : Container) (id : String) : Prop :=
  ∀ payload, f.chunk? id = some payload → payload = []

/-! ### Frames -/

theorem asList?_eq_some {t : Term} {items : List Term} :
    t.asList? = some items ↔ ProperList t items := by
  constructor
  · intro h
    cases t with
    | list elements =>
      cases h
      exact .list items
    | nil =>
      cases h
      exact .nil
    | _ => cases h
  · rintro (_ | _) <;> rfl

theorem isAtom_iff {t : Term} {name : String} : t.isAtom name = true ↔ t = .atom name := by
  cases t <;> simp [Term.isAtom]

theorem join_debugForms?_eq_some {t : Term} {forms : List Term} :
    (debugForms? t).join = some forms ↔ DebugFrame t forms := by
  constructor
  · intro h
    unfold debugForms? at h
    split at h
    · rename_i tag backend data
      split at h
      · rename_i hnames
        rw [Bool.and_eq_true, isAtom_iff, isAtom_iff] at hnames
        obtain ⟨rfl, rfl⟩ := hnames
        split at h
        · exact .intro (asList?_eq_some.mp h)
        · cases h
      · cases h
    · cases h
  · rintro ⟨h⟩
    rw [← asList?_eq_some] at h
    simp [debugForms?, Term.isAtom, h]

theorem rawForms?_eq_some {t : Term} {forms : List Term} :
    rawForms? t = some forms ↔ RawFrame t forms := by
  constructor
  · intro h
    unfold rawForms? at h
    split at h
    · split at h
      · rename_i hname
        rw [isAtom_iff] at hname
        subst hname
        exact .intro (asList?_eq_some.mp h)
      · cases h
    · cases h
  · rintro ⟨h⟩
    rw [← asList?_eq_some] at h
    simp [rawForms?, Term.isAtom, h]

/-! ### One chunk -/

/-- What is found in a chunk with these bytes. -/
def formsIn (d : Term.Decoder) (extract : Term → Option (List Term)) (payload : Bytes) :
    Except Fault (Option (List Term)) :=
  (Term.decode d payload).map fun decoded => extract decoded.term

section Chunk

variable {d : Term.Decoder} {f : Container} {id : String} {frame : Term → List Term → Prop}

theorem vacant_iff : f.Vacant id ↔ f.nonemptyChunk? id = none := by
  unfold Vacant nonemptyChunk?
  cases f.chunk? id with
  | none => simp
  | some payload => simp

theorem holds_iff {t : Term} : f.Holds d id t ↔
    ∃ payload decoded, f.nonemptyChunk? id = some payload ∧
      Term.decode d payload = .ok decoded ∧ decoded.term = t := by
  constructor
  · rintro ⟨payload, decoded, hchunk, hdecode, ht⟩
    -- No term is decoded from nothing.
    have hne : payload ≠ [] := by
      rintro rfl
      cases hdecode
    exact ⟨payload, decoded, by simp [nonemptyChunk?, hchunk, hne], hdecode, ht⟩
  · rintro ⟨payload, decoded, hchunk, hdecode, ht⟩
    exact ⟨payload, decoded, (Option.filter_eq_some_iff.mp hchunk).1, hdecode, ht⟩

theorem not_holds_of_vacant (h : f.Vacant id) (t : Term) : ¬f.Holds d id t := by
  rw [vacant_iff] at h
  rw [holds_iff]
  rintro ⟨payload, decoded, hchunk, -, -⟩
  rw [h] at hchunk
  cases hchunk

theorem not_carries_of_vacant (h : f.Vacant id) (forms : List Term) :
    ¬f.Carries d id frame forms := by
  rintro ⟨t, ht, -⟩
  exact not_holds_of_vacant h t ht

theorem not_holdsOther_of_vacant (h : f.Vacant id) : ¬f.HoldsOther d id frame := by
  rintro ⟨t, ht, -⟩
  exact not_holds_of_vacant h t ht

theorem formsIn_eq_ok {payload : Bytes} {extract : Term → Option (List Term)}
    {found : Option (List Term)} (hchunk : f.nonemptyChunk? id = some payload) :
    formsIn d extract payload = .ok found ↔ ∃ t, f.Holds d id t ∧ extract t = found := by
  simp only [holds_iff, hchunk]
  unfold formsIn
  cases hdecode : Term.decode d payload with
  | error e => simp [Except.map, hdecode]
  | ok decoded => simp [Except.map, hdecode]

variable {payload : Bytes} {extract : Term → Option (List Term)}

theorem formsIn_eq_some (hchunk : f.nonemptyChunk? id = some payload)
    (hextract : ∀ {t forms}, extract t = some forms ↔ frame t forms) (forms : List Term) :
    formsIn d extract payload = .ok (some forms) ↔ f.Carries d id frame forms := by
  simp only [formsIn_eq_ok hchunk, hextract, Carries]

theorem formsIn_eq_none (hchunk : f.nonemptyChunk? id = some payload)
    (hextract : ∀ {t forms}, extract t = some forms ↔ frame t forms) :
    formsIn d extract payload = .ok none ↔ f.HoldsOther d id frame := by
  simp only [formsIn_eq_ok hchunk, HoldsOther, ← hextract, Option.eq_none_iff_forall_ne_some]

end Chunk

/-! ### Both chunks -/

theorem value_abstractFormsBy (d : Term.Decoder) (f : Container) :
    (f.abstractFormsBy d).value =
      match f.nonemptyChunk? "Dbgi" with
      | some payload => formsIn d (fun t => (debugForms? t).join) payload
      | none =>
        match f.nonemptyChunk? "Abst" with
        | some payload => formsIn d rawForms? payload
        | none => .ok none := by
  unfold abstractFormsBy formsIn
  cases f.nonemptyChunk? "Dbgi" with
  | none =>
    cases f.nonemptyChunk? "Abst" with
    | none => rfl
    | some payload =>
      dsimp only
      cases Term.decode d payload <;> rfl
  | some payload =>
    dsimp only
    cases Term.decode d payload with
    | error e => rfl
    | ok decoded =>
      dsimp only
      cases hforms : debugForms? decoded.term <;> simp [Except.map, hforms]

/-- Forms are found in the debug chunk if it carries them, and in the older chunk if it carries them
and the debug chunk is vacant, whatever decoder reads them. No forms are found, without a fault, if
the debug chunk holds something else, whatever the older one carries, or if it is vacant and the
older one is so, too, or holds something else. -/
theorem forms_found_or_hidden (d : Term.Decoder) (f : Container) :
    (∀ forms, (f.abstractFormsBy d).value = .ok (some forms) ↔
      f.Carries d "Dbgi" DebugFrame forms ∨
        (f.Vacant "Dbgi" ∧ f.Carries d "Abst" RawFrame forms)) ∧
    ((f.abstractFormsBy d).value = .ok none ↔
      f.HoldsOther d "Dbgi" DebugFrame ∨
        (f.Vacant "Dbgi" ∧ (f.Vacant "Abst" ∨ f.HoldsOther d "Abst" RawFrame))) := by
  rw [value_abstractFormsBy]
  cases hdebug : f.nonemptyChunk? "Dbgi" with
  | some payload =>
    have hvacant : ¬f.Vacant "Dbgi" := by
      rw [vacant_iff, hdebug]
      nofun
    simp only [formsIn_eq_some hdebug join_debugForms?_eq_some,
      formsIn_eq_none hdebug join_debugForms?_eq_some, hvacant, false_and, or_false, implies_true,
      and_self]
  | none =>
    have hvacant : f.Vacant "Dbgi" := vacant_iff.mpr hdebug
    simp only [not_carries_of_vacant hvacant, not_holdsOther_of_vacant hvacant, hvacant, true_and,
      false_or]
    cases hraw : f.nonemptyChunk? "Abst" with
    | some payload =>
      have hthere : ¬f.Vacant "Abst" := by
        rw [vacant_iff, hraw]
        nofun
      simp only [formsIn_eq_some hraw rawForms?_eq_some, formsIn_eq_none hraw rawForms?_eq_some,
        hthere, false_or, implies_true, and_self]
    | none =>
      have hgone : f.Vacant "Abst" := vacant_iff.mpr hraw
      simp [not_carries_of_vacant hgone, hgone]

-- The debug information of another backend, and abstract code in the older chunk.
theorem forms_hidden_by_other_backend :
    ∃ f : Container, (parse
        [70, 79, 82, 49, 0, 0, 0, 92, 66, 69, 65, 77,
          68, 98, 103, 105, 0, 0, 0, 36, 131, 104, 3,
            119, 13, 100, 101, 98, 117, 103, 95, 105, 110, 102, 111, 95, 118, 49,
            119, 10, 101, 108, 105, 120, 105, 114, 95, 101, 114, 108,
            119, 4, 110, 111, 110, 101,
          65, 98, 115, 116, 0, 0, 0, 35, 131, 104, 2,
            119, 15, 114, 97, 119, 95, 97, 98, 115, 116, 114, 97, 99, 116, 95, 118, 49,
            108, 0, 0, 0, 1, 104, 2, 119, 3, 101, 111, 102, 97, 9, 106, 0]).value = .ok f ∧
      f.abstractForms.value = .ok none ∧
      f.Carries .standard "Abst" RawFrame [.tuple [.atom "eof", .integer 9]] := by
  refine ⟨_, rfl, rfl, ?_⟩
  exact ⟨_, ⟨_, _, rfl, rfl, rfl⟩, .intro (.list _)⟩

end BeamScope.Container
