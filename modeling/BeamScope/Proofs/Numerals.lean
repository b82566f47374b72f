import BeamScope.Text.Digits
import Mathlib.Data.Nat.Digits.Lemmas

/-!
# Decimal numerals

Reading digits from the left undoes writing them (`natOfDigits?_toDigits`), and apart from zeros in
front nothing else is read to the same number (`toDigits_append`). So an integer has exactly one
numeral, and that is its text (`isNumeral_iff`).
-/

namespace BeamScope.Text

/-- A minus sign exactly for a negative number, then the digits of the magnitude, at least one and
without a zero in front of others. -/
def IsNumeral (v : Int) (text : String) : Prop :=
  ∃ ds, text.toList = (if v < 0 then '-' :: ds else ds) ∧
    natOfDigits? 10 0 ds = some v.natAbs ∧ ds ≠ [] ∧ (ds.head? = some '0' → ds = ['0'])

/-! ### Digits -/

theorem digit?_digitChar {base d : Nat} (hbase : base ≤ 16) (h : d < base) :
    digit? base (Nat.digitChar d) = some d := by
  have hd : d < 16 := by omega
  interval_cases d <;> exact if_pos h

theorem digit?_of_mem {base acc n : Nat} {cs : List Char} (h : natOfDigits? base acc cs = some n) :
    ∀ c ∈ cs, digit? base c ≠ none := by
  induction cs generalizing acc with
  | nil => nofun
  | cons c cs ih =>
    obtain ⟨d, hd, hrest⟩ := Option.bind_eq_some_iff.mp (show _ = some n from h)
    rw [List.forall_mem_cons]
    constructor
    · rw [hd]
      nofun
    · exact ih hrest

theorem digit?_eq_some {c : Char} {d : Nat} (h : digit? 10 c = some d) :
    d < 10 ∧ c = Nat.digitChar d := by
  unfold digit? at h
  dsimp only at h
  by_cases hc : '0' ≤ c ∧ c ≤ '9'
  · rw [if_pos hc] at h
    obtain ⟨hlt, rfl⟩ : c.toNat - '0'.toNat < 10 ∧ c.toNat - '0'.toNat = d := by simpa using h
    have hlow : '0'.toNat ≤ c.toNat := hc.1
    have hchar : (Nat.digitChar (c.toNat - '0'.toNat)).toNat = c.toNat := by
      rw [Nat.toNat_digitChar_of_lt_ten hlt]
      exact Nat.add_sub_of_le hlow
    exact ⟨hlt, Char.toNat_inj.mp hchar.symm⟩
  -- Letters are digits of larger bases only.
  · rw [if_neg hc] at h
    have hlarge : ∀ n, ¬(n + 10 < 10) := fun n => by omega
    split at h
    · rw [if_neg (hlarge _)] at h
      cases h
    · split at h
      · rw [if_neg (hlarge _)] at h
        cases h
      · cases h

theorem natOfDigits?_append (base acc : Nat) (cs ds : List Char) :
    natOfDigits? base acc (cs ++ ds) =
      (natOfDigits? base acc cs).bind fun n => natOfDigits? base n ds := by
  induction cs generalizing acc with
  | nil => rfl
  | cons c cs ih =>
    rw [List.cons_append, natOfDigits?, natOfDigits?]
    cases digit? base c with
    | none => rfl
    | some d => exact ih _

/-! ### Writing and reading -/

theorem toDigits_lt_ten {n : Nat} (h : n < 10) : Nat.toDigits 10 n = [Nat.digitChar n] :=
  Nat.toDigits_of_lt_base h

theorem toDigits_step {n : Nat} (h : ¬n < 10) :
    Nat.toDigits 10 n = Nat.toDigits 10 (n / 10) ++ [Nat.digitChar (n % 10)] := by
  rw [Nat.toDigits_eq_if (by decide), if_neg h]

theorem natOfDigits?_toDigits_base {base : Nat} (hone : 1 < base) (hbase : base ≤ 16) (n : Nat) :
    natOfDigits? base 0 (Nat.toDigits base n) = some n := by
  induction n using Nat.strongRecOn with
  | ind n ih =>
    by_cases hn : n < base
    · rw [Nat.toDigits_of_lt_base hn, natOfDigits?, digit?_digitChar hbase hn]
      simp [natOfDigits?]
    · have hdigit := digit?_digitChar hbase (Nat.mod_lt n (show 0 < base by omega))
      have hless : n / base < n := Nat.div_lt_self (by omega) hone
      rw [Nat.toDigits_eq_if hone, if_neg hn, natOfDigits?_append, ih _ hless, Option.bind_some,
        natOfDigits?, hdigit, Option.bind_some, natOfDigits?, Nat.mul_comm, Nat.div_add_mod]

theorem natOfDigits?_toDigits (n : Nat) : natOfDigits? 10 0 (Nat.toDigits 10 n) = some n :=
  natOfDigits?_toDigits_base (by decide) (by decide) n

theorem head?_toDigits {n : Nat} (h : (Nat.toDigits 10 n).head? = some '0') : n = 0 := by
  induction n using Nat.strongRecOn with
  | ind n ih =>
    by_cases hn : n < 10
    · rw [toDigits_lt_ten hn, List.head?_cons, Option.some.injEq] at h
      exact Nat.digitChar_eq_zero.mp h
    · rw [toDigits_step hn, List.head?_append_of_ne_nil _ Nat.toDigits_ne_nil] at h
      have hzero := ih (n / 10) (by omega) h
      omega

/-- Digits read onto a number that is not zero are those that its numeral lacks. -/
theorem toDigits_append {ds : List Char} {acc n : Nat} (hacc : 0 < acc)
    (h : natOfDigits? 10 acc ds = some n) : Nat.toDigits 10 acc ++ ds = Nat.toDigits 10 n := by
  induction ds generalizing acc with
  | nil =>
    cases h
    exact List.append_nil _
  | cons c ds ih =>
    rw [natOfDigits?] at h
    obtain ⟨d, hd, hrest⟩ := Option.bind_eq_some_iff.mp h
    obtain ⟨hlt, rfl⟩ := digit?_eq_some hd
    have hstep : Nat.toDigits 10 acc ++ [Nat.digitChar d] = Nat.toDigits 10 (acc * 10 + d) := by
      rw [← toDigits_lt_ten hlt, Nat.toDigits_append_toDigits (by decide) hacc hlt, Nat.mul_comm]
    rw [← ih (by omega) hrest, ← hstep, List.append_assoc]
    rfl

theorem eq_toDigits {ds : List Char} {n : Nat} (h : natOfDigits? 10 0 ds = some n)
    (hne : ds ≠ []) (hzero : ds.head? = some '0' → ds = ['0']) : ds = Nat.toDigits 10 n := by
  cases ds with
  | nil => exact absurd rfl hne
  | cons c ds =>
    obtain ⟨d, hd, hrest⟩ := Option.bind_eq_some_iff.mp (show _ = some n from h)
    obtain ⟨hlt, rfl⟩ := digit?_eq_some hd
    rw [Nat.zero_mul, Nat.zero_add] at hrest
    rcases Nat.eq_zero_or_pos d with rfl | hpos
    · cases hzero rfl
      cases hrest
      rfl
    · rw [← toDigits_append hpos hrest, toDigits_lt_ten hlt]
      rfl

/-! ### Numbers in groups of digits -/

theorem padLeft_toDigits (width n : Nat) :
    padLeft '0' (width + 2) (Nat.toDigits 10 n) =
      padLeft '0' (width + 1) (Nat.toDigits 10 (n / 10)) ++ [Nat.digitChar (n % 10)] := by
  unfold padLeft
  by_cases hn : n < 10
  · rw [Nat.div_eq_of_lt hn, Nat.mod_eq_of_lt hn, toDigits_lt_ten hn]
    have hzero : List.replicate width '0' ++ Nat.toDigits 10 0 = List.replicate (width + 1) '0' :=
      List.replicate_succ'.symm
    exact congrArg (· ++ [Nat.digitChar n]) hzero.symm
  · rw [toDigits_step hn, List.length_append, List.length_singleton,
      Nat.add_sub_add_right (width + 1) 1, List.append_assoc]

/-- A number is written as what stands in front of its last digits, followed by these, with the
zeros that their number would not have on its own. -/
theorem toDigits_append_padLeft {a b width : Nat} (ha : 0 < a) (hb : b < 10 ^ (width + 1)) :
    Nat.toDigits 10 a ++ padLeft '0' (width + 1) (Nat.toDigits 10 b) =
      Nat.toDigits 10 (a * 10 ^ (width + 1) + b) := by
  induction width generalizing b with
  | zero =>
    replace hb : b < 10 := hb
    have hpad : padLeft '0' 1 (Nat.toDigits 10 b) = Nat.toDigits 10 b := by
      rw [toDigits_lt_ten hb]
      rfl
    rw [hpad, Nat.toDigits_append_toDigits (by decide) ha hb, Nat.mul_comm, Nat.pow_one]
  | succ width ih =>
    have hfront : 0 < a * 10 ^ (width + 1) + b / 10 :=
      Nat.add_pos_left (Nat.mul_pos ha (Nat.pow_pos (by decide))) _
    have hlast : b % 10 < 10 := Nat.mod_lt b (by decide)
    have hsplit : 10 * (a * 10 ^ (width + 1) + b / 10) + b % 10 =
        a * 10 ^ (width + 1 + 1) + b := by
      rw [Nat.pow_succ 10 (width + 1), ← Nat.mul_assoc]
      omega
    rw [padLeft_toDigits, ← List.append_assoc, ih (by omega), ← toDigits_lt_ten hlast,
      Nat.toDigits_append_toDigits (by decide) hfront hlast, hsplit]

/-! ### Integers -/

theorem toList_toString (v : Int) : (toString v).toList =
    if v < 0 then '-' :: Nat.toDigits 10 v.natAbs else Nat.toDigits 10 v.natAbs := by
  rw [Int.toString_eq_repr, Int.repr_eq_if]
  by_cases hv : v < 0
  · rw [if_pos hv, if_neg (by omega), String.toList_append, Nat.toList_repr,
      show (-v).toNat = v.natAbs by omega]
    rfl
  · rw [if_neg hv, if_pos (by omega), Nat.toList_repr, show v.toNat = v.natAbs by omega]

theorem isNumeral_iff {v : Int} {text : String} : IsNumeral v text ↔ text = toString v := by
  constructor
  · rintro ⟨ds, htext, hread, hne, hzero⟩
    have hds := eq_toDigits hread hne hzero
    apply String.toList_injective
    rw [htext, hds, toList_toString]
  · rintro rfl
    refine ⟨Nat.toDigits 10 v.natAbs, toList_toString v, natOfDigits?_toDigits _,
      Nat.toDigits_ne_nil, fun hhead => ?_⟩
    rw [head?_toDigits hhead]
    rfl

end BeamScope.Text
