import BeamScope.Format.Literal

/-!
# How wide a literal is shown

A text that is too long is cut at the width and says so with three points. A binary sets room apart
for its size, and its text ends in angle brackets, so a cut text is never taken for a whole one.
-/

namespace BeamScope.Format

theorem truncateChars_eq (width : Nat) (cs : List Char) : truncateChars width cs =
    if cs.length ≤ width then cs else cs.take width ++ "...".toList := by
  have hempty : (cs.drop width).isEmpty = true ↔ cs.length ≤ width := by
    rw [List.isEmpty_iff, List.drop_eq_nil_iff]
  simp only [truncateChars, hempty]
  rfl

theorem truncateChars_of_le {width : Nat} {cs : List Char} (h : cs.length ≤ width) :
    truncateChars width cs = cs := by
  rw [truncateChars_eq, if_pos h]

theorem truncateChars_of_lt {width : Nat} {cs : List Char} (h : width < cs.length) :
    truncateChars width cs = cs.take width ++ "...".toList := by
  rw [truncateChars_eq, if_neg (Nat.not_le.mpr h)]

theorem length_truncateChars_le (width : Nat) (cs : List Char) :
    (truncateChars width cs).length ≤ width + 3 := by
  rcases Nat.lt_or_ge width cs.length with h | h
  · have hpoints : "...".toList.length = 3 := rfl
    rw [truncateChars_of_lt h, List.length_append, List.length_take, hpoints]
    omega
  · rw [truncateChars_of_le h]
    omega

/-- A text that does not end in a point shows whether it was cut. -/
theorem truncateChars_eq_self_iff {width : Nat} {cs : List Char} (h : cs.getLast? ≠ some '.') :
    truncateChars width cs = cs ↔ cs.length ≤ width := by
  constructor
  · intro heq
    apply Nat.le_of_not_lt
    intro hlt
    rw [truncateChars_of_lt hlt] at heq
    rw [← heq, List.getLast?_append] at h
    exact h rfl
  · exact truncateChars_of_le

theorem getLast?_binaryChars (bs : Bytes) : (binaryChars bs).getLast? = some '>' := by
  rw [binaryChars, List.getLast?_append]
  rfl

theorem literalChars_of_not_binary {t : Term} (h : ∀ bs, t ≠ .binary bs) (width : Nat) :
    literalChars width t = truncateChars width (termChars t) := by
  cases t with
  | binary bs => exact absurd rfl (h bs)
  | _ => rfl

section Binary

variable {width : Nat} {bs : Bytes}

theorem literalChars_of_room (h : (sizeNote bs.length).length ≤ width) :
    literalChars width (.binary bs) =
      truncateChars (width - (sizeNote bs.length).length) (termChars (.binary bs)) ++
        sizeNote bs.length := if_pos h

theorem literalChars_of_no_room (h : ¬(sizeNote bs.length).length ≤ width) :
    literalChars width (.binary bs) =
      truncateChars width (termChars (.binary bs) ++ sizeNote bs.length) := if_neg h

theorem literalChars_binary_eq_whole_iff (h : (sizeNote bs.length).length ≤ width) :
    literalChars width (.binary bs) = termChars (.binary bs) ++ sizeNote bs.length ↔
      (termChars (.binary bs)).length + (sizeNote bs.length).length ≤ width := by
  have hlast : (termChars (.binary bs)).getLast? ≠ some '.' := by
    rw [termChars, getLast?_binaryChars]
    decide
  rw [literalChars_of_room h, List.append_left_inj, truncateChars_eq_self_iff hlast]
  omega

end Binary

theorem length_literalChars_le (width : Nat) (t : Term) :
    (literalChars width t).length ≤ width + 3 := by
  by_cases hbinary : ∃ bs, t = .binary bs
  · obtain ⟨bs, rfl⟩ := hbinary
    by_cases hroom : (sizeNote bs.length).length ≤ width
    · have hbody := length_truncateChars_le (width - (sizeNote bs.length).length)
        (termChars (.binary bs))
      rw [literalChars_of_room hroom, List.length_append]
      omega
    · rw [literalChars_of_no_room hroom]
      exact length_truncateChars_le ..
  · rw [literalChars_of_not_binary fun bs hbs => hbinary ⟨bs, hbs⟩]
    exact length_truncateChars_le ..

/-- A literal takes at most the width and three points. One that is no binary is shown whole if it
fits and is cut at the width if not. A binary keeps its size whenever there is room for that, and is
shown whole exactly if both fit together. -/
theorem literal_cut_to_width (t : Term) (width : Nat) :
    (literal t width).length ≤ width + 3 ∧
    ((∀ bs, t ≠ .binary bs) → (literal t width).toList =
      if (termChars t).length ≤ width then termChars t
      else (termChars t).take width ++ "...".toList) ∧
    ∀ bs, t = .binary bs → (sizeNote bs.length).length ≤ width →
      sizeNote bs.length <:+ (literal t width).toList ∧
      ((literal t width).toList = termChars t ++ sizeNote bs.length ↔
        (termChars t).length + (sizeNote bs.length).length ≤ width) := by
  have htext : (literal t width).toList = literalChars width t := String.toList_ofList
  rw [← String.length_toList, htext]
  refine ⟨length_literalChars_le width t, ?_, ?_⟩
  · intro hbinary
    rw [literalChars_of_not_binary hbinary, truncateChars_eq]
  · rintro bs rfl hroom
    refine ⟨?_, literalChars_binary_eq_whole_iff hroom⟩
    rw [literalChars_of_room hroom]
    exact List.suffix_append ..

-- One character short, a binary of three bytes is cut, and keeps its size.
theorem literal_cut_to_width_one_short :
    let t : Term := .binary [97, 98, 99]
    termChars t = "<<\"abc\">>".toList ∧ sizeNote 3 = " (3 bytes)".toList ∧
      (literal t 19).toList = termChars t ++ sizeNote 3 ∧
      (literal t 18).toList ≠ termChars t ++ sizeNote 3 ∧
      sizeNote 3 <:+ (literal t 18).toList ∧ (literal t 18).length ≤ 21 ∧
      (literal (.atom "abc") 3).toList = ":ab...".toList := by
  intro t
  obtain ⟨-, -, hwhole⟩ := literal_cut_to_width t 19
  obtain ⟨hlength, -, hcut⟩ := literal_cut_to_width t 18
  obtain ⟨-, hatom, -⟩ := literal_cut_to_width (.atom "abc") 3
  refine ⟨by decide, by decide, (hwhole _ rfl (by decide)).2.mpr (by decide), ?_,
    (hcut _ rfl (by decide)).1, hlength, (hatom nofun).trans (by decide)⟩
  intro h
  exact absurd ((hcut _ rfl (by decide)).2.mp h) (by decide)

end BeamScope.Format
