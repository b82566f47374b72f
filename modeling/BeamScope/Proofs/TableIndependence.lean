import Mathlib.Data.List.Forall2
import BeamScope.Proofs.Assembly

/-!
# Literals and imports never decide whether code can be read

Reading looks into the literal and import tables only to say what a number stands for. So every run
goes along with the run that has neither table: both stop at the same fault, or both read as many
instructions with the same opcodes, and putting the numbers back in place of what they stand for
turns the operands of the one into those of the other (`Unlinks`). Two runs with different tables
are compared through the run with none.
-/

namespace BeamScope

/-- Whether an operand is neither taken from a table nor made of other operands. -/
def Operand.isPlain : Operand → Bool
  | .literal _ | .extFunc _ | .typed _ _ | .list _ | .tuple _ => false
  | _ => true

namespace Code

/-- The tables without imports and literals. -/
def Tables.bare (t : Tables) : Tables := { t with imports := .empty, literals := none }

/-- `o'` is `o` with every literal, at any depth, replaced by a literal number that stands for it,
and every function by an import number that stands for it. -/
inductive Unlinks (t : Tables) : Operand → Operand → Prop where
  | literal {n : Nat} {term : Term} (h : t.literals.bind (·.get? n) = some term) :
      Unlinks t (.literal term) (.literalRef n)
  | extFunc {n : Nat} {f : ExtFunc} (h : t.imports.resolve n t.atoms = some f) :
      Unlinks t (.extFunc f) (.unsigned n)
  | typed {reg reg' : Operand} (typeIndex : Nat) (h : Unlinks t reg reg') :
      Unlinks t (.typed reg typeIndex) (.typed reg' typeIndex)
  | list {items items' : List Operand} (h : List.Forall₂ (Unlinks t) items items') :
      Unlinks t (.list items) (.list items')
  | plain {o : Operand} (h : o.isPlain = true) : Unlinks t o o

/-- The instruction `b` is `i` with its operands unlinked. -/
structure UnlinksTo (t : Tables) (i b : RawInstruction) : Prop where
  opcode : i.opcode = b.opcode
  operands : List.Forall₂ (Unlinks t) i.operands b.operands

/-! ### Readers that go along -/

/-- Two results of reading that are the same fault, or related values with the same rest. -/
def Alike {α β : Type} (R : α → β → Prop) :
    Except Fault (α × Cursor) → Except Fault (β × Cursor) → Prop
  | .error e, .error e' => e = e'
  | .ok (a, c), .ok (b, c') => R a b ∧ c = c'
  | _, _ => False

section Alike

variable {α β γ δ : Type} {R : α → β → Prop} {S : γ → δ → Prop}

theorem Alike.ok {a : α} {b : β} (h : R a b) (c : Cursor) :
    Alike R (.ok (a, c)) (.ok (b, c)) := ⟨h, rfl⟩

theorem Alike.fail (e : Fault) : Alike R (.error e) (.error e) := rfl

theorem Alike.cases {x : Except Fault (α × Cursor)} {y : Except Fault (β × Cursor)}
    (h : Alike R x y) :
    (∃ e, x = .error e ∧ y = .error e) ∨ ∃ a b c, x = .ok (a, c) ∧ y = .ok (b, c) ∧ R a b := by
  cases x with
  | error e =>
    cases y with
    | error e' => exact .inl ⟨e, rfl, congrArg _ (Eq.symm h)⟩
    | ok q => exact h.elim
  | ok p =>
    cases y with
    | error e' => exact h.elim
    | ok q =>
      obtain ⟨a, c⟩ := p
      obtain ⟨b, c'⟩ := q
      obtain ⟨hab, rfl⟩ := h
      exact .inr ⟨a, b, c, rfl, rfl, hab⟩

theorem Alike.bind {x : Except Fault (α × Cursor)} {y : Except Fault (β × Cursor)}
    {f : α × Cursor → Except Fault (γ × Cursor)} {g : β × Cursor → Except Fault (δ × Cursor)}
    (h : Alike R x y) (hfg : ∀ a b c, R a b → Alike S (f (a, c)) (g (b, c))) :
    Alike S (x >>= f) (y >>= g) := by
  obtain ⟨e, rfl, rfl⟩ | ⟨a, b, c, rfl, rfl, hab⟩ := h.cases
  · exact Alike.fail e
  · exact hfg a b c hab

/-- A step that both make. -/
theorem Alike.after {ε : Type} (x : Except Fault ε) {f : ε → Except Fault (γ × Cursor)}
    {g : ε → Except Fault (δ × Cursor)} (h : ∀ a, Alike S (f a) (g a)) :
    Alike S (x >>= f) (x >>= g) := by
  cases x with
  | error e => exact Alike.fail e
  | ok a => exact h a

theorem Alike.ite (p : Prop) [Decidable p] {x x' : Except Fault (α × Cursor)}
    {y y' : Except Fault (β × Cursor)} (h : Alike R x y) (h' : Alike R x' y') :
    Alike R (if p then x else x') (if p then y else y') := by
  split
  · exact h
  · exact h'

theorem alike_many {read : Cursor → Except Fault (α × Cursor)}
    {read' : Cursor → Except Fault (β × Cursor)} (h : ∀ c, Alike R (read c) (read' c)) (n : Nat)
    (c : Cursor) : Alike (List.Forall₂ R) (Cursor.many read n c) (Cursor.many read' n c) := by
  induction n generalizing c with
  | zero => exact Alike.ok .nil c
  | succ n ih =>
    rw [Cursor.many, Cursor.many]
    refine (h c).bind fun a b c hab => ?_
    refine (ih c).bind fun as bs c habs => ?_
    exact Alike.ok (.cons hab habs) c

end Alike

theorem alike_readOperand (t : Tables) (fuel : Nat) (c : Cursor) :
    Alike (Unlinks t) (readOperand t fuel c) (readOperand t.bare fuel c) := by
  induction fuel generalizing c with
  | zero => exact Alike.fail _
  | succ fuel ih =>
    rw [readOperand, readOperand]
    refine Alike.after _ ?_
    rintro ⟨item, c⟩
    dsimp only
    cases item.tag with
    | unsigned => exact Alike.ok (.plain rfl) c
    | integer => exact Alike.ok (.plain rfl) c
    | char => exact Alike.ok (.plain rfl) c
    | atom =>
      refine Alike.ite _ (Alike.ok (.plain rfl) c) ?_
      have hatoms : t.bare.atoms = t.atoms := rfl
      rw [hatoms]
      cases t.atoms.get? item.value.toNat with
      | some name => exact Alike.ok (.plain rfl) c
      | none => exact Alike.fail _
    | x => exact Alike.after _ fun n => Alike.ok (.plain rfl) c
    | y => exact Alike.after _ fun n => Alike.ok (.plain rfl) c
    | label => exact Alike.after _ fun n => Alike.ok (.plain rfl) c
    | extended =>
      generalize item.value.toNat = kind
      rcases kind with _ | _ | _ | _ | _ | _ | kind
      · exact Alike.fail _
      · refine Alike.after _ ?_
        rintro ⟨len, c⟩
        refine Alike.ite _ (Alike.fail _) ?_
        refine (alike_many ih len c).bind fun items items' c hitems => ?_
        exact Alike.ok (.list hitems) c
      · exact Alike.after _ fun p => Alike.ok (.plain rfl) p.2
      · refine Alike.after _ ?_
        rintro ⟨count, c⟩
        exact Alike.after _ fun p => Alike.ok (.plain rfl) p.2
      · refine Alike.after _ ?_
        rintro ⟨index, c⟩
        dsimp only [Tables.bare]
        cases hterm : t.literals.bind (·.get? index) with
        | some term => exact Alike.ok (.literal hterm) c
        | none => exact Alike.ok (.plain rfl) c
      · refine (ih c).bind fun reg reg' c hreg => ?_
        exact Alike.after _ fun p => Alike.ok (.typed p.1 hreg) p.2
      · exact Alike.fail _

theorem alike_readInstruction (t : Tables) (c : Cursor) :
    Alike (UnlinksTo t) (readInstruction t c) (readInstruction t.bare c) := by
  rw [readInstruction, readInstruction]
  refine Alike.after _ ?_
  rintro ⟨opcode, after⟩
  dsimp only
  cases Opcode.lookup opcode with
  | none => exact Alike.fail _
  | some info =>
    refine (alike_many (alike_readOperand t after.rest.length) info.arity after).bind
      fun os os' c hos => ?_
    exact Alike.ok ⟨rfl, hos⟩ c

/-- Both runs read on for as long, and where one meets a fault or the end mark so does the other. -/
theorem stream_bare (t : Tables) (fuel : Nat) (c : Cursor) :
    (stream t fuel c).fault = (stream t.bare fuel c).fault ∧
      List.Forall₂ (UnlinksTo t) ((stream t fuel c).items.map Prod.snd)
        ((stream t.bare fuel c).items.map Prod.snd) := by
  induction fuel generalizing c with
  | zero => simp [stream]
  | succ fuel ih =>
    rw [stream, stream]
    split
    · exact ⟨rfl, .nil⟩
    · obtain ⟨e, hread, hbare⟩ | ⟨i, b, after, hread, hbare, hib⟩ :=
        (alike_readInstruction t c).cases
      · rw [hread, hbare]
        exact ⟨rfl, .nil⟩
      · have hend : b.isCodeEnd = i.isCodeEnd := by
          rw [RawInstruction.isCodeEnd, RawInstruction.isCodeEnd, hib.opcode]
        simp only [hread, hbare, hend]
        cases i.isCodeEnd with
        | true =>
          refine ⟨by simp only [if_true], ?_⟩
          exact .cons hib .nil
        | false =>
          obtain ⟨hfault, hitems⟩ := ih after
          exact ⟨hfault, .cons hib hitems⟩

/-! ### Imports -/

theorem unlinks_importOf {t : Tables} {o o' : Operand} (h : Unlinks t o o') :
    Unlinks t (importOf t o) o' := by
  cases o with
  | unsigned n =>
    -- A number is unlinked to itself, so the function it means is unlinked to that number.
    cases h
    simp only [importOf]
    cases hf : t.imports.resolve n t.atoms with
    | none => exact .plain rfl
    | some f => exact .extFunc hf
  | _ => exact h

theorem forall₂_modify {α β : Type} {R : α → β → Prop} {f : α → α}
    (hf : ∀ {a b}, R a b → R (f a) b) {as : List α} {bs : List β} (h : List.Forall₂ R as bs)
    (n : Nat) : List.Forall₂ R (as.modify n f) bs := by
  induction h generalizing n with
  | nil => simp
  | cons hab hrest ih =>
    cases n with
    | zero => exact .cons (hf hab) hrest
    | succ n => exact .cons hab (ih n)

theorem UnlinksTo.withImport {t : Tables} {i b : RawInstruction} (h : UnlinksTo t i b) :
    UnlinksTo t (withImport t i) b := by
  refine ⟨(opcode_withImport t i).trans h.opcode, ?_⟩
  unfold Code.withImport
  split
  · exact h.operands
  · exact forall₂_modify unlinks_importOf h.operands _

theorem withImport_bare (t : Tables) (i : RawInstruction) : withImport t.bare i = i := by
  have hself : importOf t.bare = id := by
    funext o
    cases o <;> rfl
  unfold withImport
  split
  · rfl
  · rw [hself, List.modify_id]

/-- A run goes along with the run without imports and literals. -/
theorem instructions_bare (t : Tables) (data : Bytes) (offset : Nat) :
    (∃ e, (instructions t data offset).value = .error e ∧
      (instructions t.bare data offset).value = .error e) ∨
    ∃ is bs, (instructions t data offset).value = .ok is ∧
      (instructions t.bare data offset).value = .ok bs ∧ List.Forall₂ (UnlinksTo t) is bs := by
  obtain ⟨hfault, hitems⟩ := stream_bare t (Cursor.ofOffset data offset).rest.length
    (Cursor.ofOffset data offset)
  simp only [value_instructions, Run.toExcept, ← hfault]
  cases (stream t (Cursor.ofOffset data offset).rest.length (Cursor.ofOffset data offset)).fault with
  | some e => exact .inl ⟨e, rfl, rfl⟩
  | none =>
    refine .inr ⟨_, _, rfl, rfl, ?_⟩
    rw [List.forall₂_map_left_iff, List.forall₂_map_right_iff]
    refine hitems.imp fun i b hib => ?_
    rw [withImport_bare]
    exact hib.withImport

theorem exists_getElem?_of_forall₂ {α β : Type} {R : α → β → Prop} {as : List α} {bs : List β}
    (h : List.Forall₂ R as bs) {k : Nat} {a : α} (ha : as[k]? = some a) :
    ∃ b, bs[k]? = some b ∧ R a b := by
  obtain ⟨hk, rfl⟩ := List.getElem?_eq_some_iff.mp ha
  have hk' : k < bs.length := h.length_eq ▸ hk
  exact ⟨bs[k], List.getElem?_eq_getElem hk', h.get hk hk'⟩

/-- Imports and literals never decide whether code can be read: with the same atoms and any other
tables, two runs end with the same fault, or read as many instructions with the same opcodes and
with operands that are unlinked to the same ones, those that are read with no tables at all. -/
theorem instructions_for_any_tables (atoms : AtomTable) (imports₁ imports₂ : ImportTable)
    (literals₁ literals₂ : Option LiteralTable) (checkCounts : Bool) (data : Bytes)
    (offset : Nat) :
    let t₁ : Tables := ⟨atoms, imports₁, literals₁, checkCounts⟩
    let t₂ : Tables := ⟨atoms, imports₂, literals₂, checkCounts⟩
    let t₀ : Tables := ⟨atoms, .empty, none, checkCounts⟩
    (∃ e, (instructions t₁ data offset).value = .error e ∧
      (instructions t₂ data offset).value = .error e) ∨
    ∃ is₁ is₂ bs, (instructions t₁ data offset).value = .ok is₁ ∧
      (instructions t₂ data offset).value = .ok is₂ ∧
      (instructions t₀ data offset).value = .ok bs ∧ is₁.length = is₂.length ∧
      ∀ (k : Nat) i₁ i₂, is₁[k]? = some i₁ → is₂[k]? = some i₂ →
        i₁.opcode = i₂.opcode ∧ ∃ b, bs[k]? = some b ∧
          List.Forall₂ (Unlinks t₁) i₁.operands b.operands ∧
          List.Forall₂ (Unlinks t₂) i₂.operands b.operands := by
  intro t₁ t₂ t₀
  obtain ⟨e, h₁, h₀⟩ | ⟨is₁, bs, h₁, h₀, hbs₁⟩ := instructions_bare t₁ data offset
  · obtain ⟨e', h₂, h₀'⟩ | ⟨is₂, bs', h₂, h₀', -⟩ := instructions_bare t₂ data offset
    · have he : Except.error e = Except.error e' := h₀.symm.trans h₀'
      cases he
      exact .inl ⟨e, h₁, h₂⟩
    · cases h₀.symm.trans h₀'
  · obtain ⟨e', h₂, h₀'⟩ | ⟨is₂, bs', h₂, h₀', hbs₂⟩ := instructions_bare t₂ data offset
    · cases h₀.symm.trans h₀'
    · cases h₀.symm.trans h₀'
      refine .inr ⟨is₁, is₂, bs, h₁, h₂, h₀, hbs₁.length_eq.trans hbs₂.length_eq.symm, ?_⟩
      intro k i₁ i₂ hi₁ hi₂
      obtain ⟨b, hb, hib₁⟩ := exists_getElem?_of_forall₂ hbs₁ hi₁
      obtain ⟨b', hb', hib₂⟩ := exists_getElem?_of_forall₂ hbs₂ hi₂
      cases hb.symm.trans hb'
      exact ⟨hib₁.opcode.trans hib₂.opcode.symm, b, hb, hib₁.operands, hib₂.operands⟩

end Code

end BeamScope
