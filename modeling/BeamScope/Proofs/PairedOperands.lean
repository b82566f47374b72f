import BeamScope.Format.Instruction

/-!
# Keys and values of instructions on maps

Behind its fixed operands an instruction on maps takes keys and values in turn, in one list or spread
over the operands, and both are shown as the same pairs. What stands alone behind the fixed operands
and is a list counts as the list of all pairs. Keys and values that are spread come in an even number,
so none of them is ever alone there, even if it is a list itself.
-/

namespace BeamScope.Format

inductive MapInstruction where
  | getElements
  | putAssoc
  | putExact

namespace MapInstruction

def opcode : MapInstruction → UInt8
  | getElements => 158
  | putAssoc => 154
  | putExact => 155

def name : MapInstruction → String
  | getElements => "get_map_elements"
  | putAssoc => "put_map_assoc"
  | putExact => "put_map_exact"

/-- How many operands stand before the pairs. -/
def fixed : MapInstruction → Nat
  | getElements => 2
  | putAssoc => 4
  | putExact => 4

def separator : MapInstruction → String
  | getElements => ": "
  | putAssoc => " => "
  | putExact => " => "

theorem mnemonic_opcode (m : MapInstruction) : mnemonic (Opcode.describe m.opcode) = m.name := by
  cases m <;> decide +kernel

theorem pairShape?_name (m : MapInstruction) :
    pairShape? m.name = some ⟨m.fixed, m.separator⟩ := by
  cases m <;> rfl

end MapInstruction

section Pairs

variable (width : Nat)

theorem operands_eq_map (os : List Operand) : operands width os = os.map (operand width) := by
  induction os with
  | nil => rfl
  | cons o os ih => rw [operands, ih, List.map_cons]

theorem length_pairs (separator : String) {kvs : List Operand} (heven : kvs.length % 2 = 0) :
    (pairs width separator kvs).length = kvs.length / 2 := by
  fun_induction pairs width separator kvs with
  | case1 key value rest ih =>
    simp only [List.length_cons] at heven ⊢
    rw [ih (by omega)]
    omega
  | case2 key => cases heven
  | case3 => rfl

theorem getElem?_pairs (separator : String) {kvs : List Operand} {j : Nat} {key value : Operand}
    (hkey : kvs[2 * j]? = some key) (hvalue : kvs[2 * j + 1]? = some value) :
    (pairs width separator kvs)[j]? =
      some (operand width key ++ separator ++ operand width value) := by
  induction j generalizing kvs with
  | zero =>
    cases kvs with
    | nil => cases hkey
    | cons k rest =>
      cases rest with
      | nil => cases hvalue
      | cons v rest =>
        cases hkey
        cases hvalue
        rfl
  | succ j ih =>
    cases kvs with
    | nil => cases hkey
    | cons k rest =>
      cases rest with
      | nil => cases hvalue
      | cons v rest => exact ih hkey hvalue

theorem spread_of_length_ne_one {os : List Operand} (h : os.length ≠ 1) : spread os = os := by
  unfold spread
  split
  · exact absurd rfl h
  · rfl

theorem pairedOperands_append {shape : PairShape} {fixed : List Operand}
    (hfixed : fixed.length = shape.fixed) (rest : List Operand) :
    pairedOperands width shape (fixed ++ rest) =
      fixed.map (operand width) ++ pairs width shape.separator (spread rest) := by
  have henough : ¬(fixed ++ rest).length < shape.fixed := by
    rw [List.length_append]
    omega
  rw [pairedOperands, if_neg henough, ← hfixed, List.take_left, List.drop_left, operands_eq_map]

theorem instruction_append (m : MapInstruction) {fixed : List Operand}
    (hfixed : fixed.length = m.fixed) (rest : List Operand) :
    instruction width ⟨m.opcode, fixed ++ rest⟩ =
      ⟨(Opcode.describe m.opcode).category, m.name,
        fixed.map (operand width) ++ pairs width m.separator (spread rest)⟩ := by
  have hpaired : pairedOperands width ⟨m.fixed, m.separator⟩ (fixed ++ rest) =
      fixed.map (operand width) ++ pairs width m.separator (spread rest) :=
    pairedOperands_append width hfixed rest
  simp only [instruction, RawInstruction.info, m.mnemonic_opcode, m.pairShape?_name, hpaired]

/-- An instruction on maps is shown alike whether its keys and values stand in one list or are spread
over the operands: the fixed operands one by one, and then one text for each key and its value. -/
theorem instruction_wrapped_eq_spread (m : MapInstruction) (fixed kvs : List Operand)
    (hfixed : fixed.length = m.fixed) (heven : kvs.length % 2 = 0) :
    let shown := instruction width ⟨m.opcode, fixed ++ kvs⟩
    instruction width ⟨m.opcode, fixed ++ [.list kvs]⟩ = shown ∧
      shown.mnemonic = m.name ∧
      shown.operands.length = m.fixed + kvs.length / 2 ∧
      shown.operands.take m.fixed = fixed.map (operand width) ∧
      ∀ j (_ : j < kvs.length / 2), shown.operands[m.fixed + j]? =
        some (operand width kvs[2 * j] ++ m.separator ++ operand width kvs[2 * j + 1]) := by
  intro shown
  have hspread : spread kvs = kvs := by
    apply spread_of_length_ne_one
    intro hone
    rw [hone] at heven
    cases heven
  have hshown : shown = ⟨(Opcode.describe m.opcode).category, m.name,
      fixed.map (operand width) ++ pairs width m.separator kvs⟩ := by
    have happend := instruction_append width m hfixed kvs
    rw [hspread] at happend
    exact happend
  have hlen : (fixed.map (operand width)).length = m.fixed := by rw [List.length_map, hfixed]
  rw [hshown]
  refine ⟨instruction_append width m hfixed [.list kvs], rfl, ?_, ?_, ?_⟩
  · rw [List.length_append, hlen, length_pairs width m.separator heven]
  · rw [← hlen, List.take_left]
  · intro j hj
    rw [← hlen, List.getElem?_append_right (Nat.le_add_right ..), Nat.add_sub_cancel_left]
    apply getElem?_pairs
    · exact List.getElem?_eq_getElem _
    · exact List.getElem?_eq_getElem _

end Pairs

-- The second key is a list, and so is its value.
theorem instruction_wrapped_eq_spread_lists :
    let fixed : List Operand := [.label 5, .x 0]
    let kvs : List Operand := [.atom "k", .x 1, .list [.x 2, .x 3], .list []]
    fixed.length = 2 ∧ kvs.length % 2 = 0 ∧
      instruction 60 ⟨158, fixed ++ [.list kvs]⟩ = instruction 60 ⟨158, fixed ++ kvs⟩ ∧
      (instruction 60 ⟨158, fixed ++ kvs⟩).operands.length = 2 + kvs.length / 2 ∧
      (instruction 60 ⟨158, fixed ++ kvs⟩).operands =
        ["f(5)", "x(0)", ":k: x(1)", "[x(2), x(3)]: []"] := by
  intro fixed kvs
  have heven : kvs.length % 2 = 0 := by decide +zetaReduce
  obtain ⟨halike, -, hlen, -, -⟩ :=
    instruction_wrapped_eq_spread 60 .getElements fixed kvs rfl heven
  exact ⟨rfl, heven, halike, hlen, by decide +kernel +zetaReduce⟩

-- A single operand is no key with its value. If it is a list, it is taken for the list of all pairs.
example :
    instruction 60 ⟨158, [.label 5, .x 0, .list [.list [.x 1, .x 2]]]⟩ ≠
      instruction 60 ⟨158, [.label 5, .x 0, .list [.x 1, .x 2]]⟩ := by
  decide +kernel

end BeamScope.Format
