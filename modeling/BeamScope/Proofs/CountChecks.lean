import BeamScope.Proofs.Assembly
import BeamScope.Proofs.Positional.Compact
import BeamScope.Proofs.TermLayout

/-!
# Checks of counts refuse nothing that can be read

Before the elements of a tuple, a list, a map or an operand list are read, their number is compared
with the bytes that are left. Every element takes a byte at least, and a pair two, so a number that
is refused announces elements of which one would have been cut off. A run with the checks and a run
without them are compared step by step (`Parallel`): both fail, or both find the same and have taken
at least so many bytes. How much fuel they have plays no part, as long as it covers the bytes.
-/

namespace BeamScope

/-- The outcomes of two readers at `c`: both fail, or both find the same behind at least `least`
bytes. -/
inductive Parallel {α : Type} (c : Cursor) (least : Nat) :
    Except Fault (α × Cursor) → Except Fault (α × Cursor) → Prop where
  | error (e e' : Fault) : Parallel c least (.error e) (.error e')
  | ok (a : α) {after : Cursor} (h : after.rest.length + least ≤ c.rest.length) :
      Parallel c least (.ok (a, after)) (.ok (a, after))

namespace Parallel

variable {α β : Type} {c : Cursor} {k l : Nat} {x y : Except Fault (α × Cursor)}

theorem stay (a : α) (c : Cursor) : Parallel c 0 (.ok (a, c)) (.ok (a, c)) := .ok a (Nat.le_refl _)

theorem mono (h : Parallel c k x y) (hl : l ≤ k) : Parallel c l x y := by
  cases h with
  | error e e' => exact .error e e'
  | ok a h => exact .ok a (by omega)

theorem behind {after : Cursor} (h : Parallel after l x y)
    (hafter : after.rest.length + k ≤ c.rest.length) : Parallel c (k + l) x y := by
  cases h with
  | error e e' => exact .error e e'
  | ok a h => exact .ok a (by omega)

theorem bind {f g : α × Cursor → Except Fault (β × Cursor)} (h : Parallel c k x y)
    (hfg : ∀ a after, after.rest.length + k ≤ c.rest.length →
      Parallel after l (f (a, after)) (g (a, after))) :
    Parallel c (k + l) (x >>= f) (y >>= g) := by
  cases h with
  | error e e' => exact .error e e'
  | ok a h => exact (hfg a _ h).behind h

/-- What comes behind the first part need not take anything. -/
theorem andThen {f g : α × Cursor → Except Fault (β × Cursor)} (h : Parallel c k x y)
    (hfg : ∀ a after, after.rest.length + k ≤ c.rest.length →
      Parallel after 0 (f (a, after)) (g (a, after))) :
    Parallel c k (x >>= f) (y >>= g) :=
  h.bind hfg

/-- What a first part takes does not matter if nothing counts it. -/
theorem followed {f g : α × Cursor → Except Fault (β × Cursor)} (h : Parallel c k x y)
    (hfg : ∀ a after, after.rest.length ≤ c.rest.length →
      Parallel after 0 (f (a, after)) (g (a, after))) :
    Parallel c 0 (x >>= f) (y >>= g) :=
  (h.mono (Nat.zero_le _)).andThen hfg

/-- A value that both look at and that takes no bytes. -/
theorem after {γ : Type} (z : Except Fault γ) {f g : γ → Except Fault (α × Cursor)}
    (h : ∀ a, Parallel c k (f a) (g a)) : Parallel c k (z >>= f) (z >>= g) := by
  cases z with
  | error e => exact .error e e
  | ok a => exact h a

/-- A count that is refused announces more than the bytes that are left can hold. -/
theorem guard {n : Nat} (h : Parallel c k x y) (hn : n ≤ k) (b b' : Bool) (e e' : Fault) :
    Parallel c k (if b && !Bytes.holds n c.rest then .error e else x)
      (if b' && !Bytes.holds n c.rest then .error e' else y) := by
  by_cases hholds : Bytes.holds n c.rest = true
  · simpa only [hholds, Bool.not_true, Bool.and_false, Bool.false_eq_true, if_false] using h
  · rw [Bytes.holds_iff] at hholds
    cases h with
    | error e₁ e₂ => split <;> split <;> exact .error _ _
    | ok a h => omega

theorem eq_ok_iff (h : Parallel c k x y) (r : α × Cursor) : x = .ok r ↔ y = .ok r := by
  cases h with
  | error e e' => exact ⟨nofun, nofun⟩
  | ok a h => exact Iff.rfl

/-- The same cursor, with no more than `room` bytes left. -/
def Within (room : Nat) (c c' : Cursor) : Prop := c = c' ∧ c.rest.length ≤ room

theorem paired {room : Nat} (h : Parallel c k x y) (hroom : c.rest.length ≤ room) :
    Paired (Within room) (fun _ _ => True) x y := by
  cases h with
  | error e e' => exact .error trivial
  | ok a h => exact .ok a ⟨rfl, by omega⟩

theorem of_paired (h : Paired (Within c.rest.length) (fun _ _ => True) x y) :
    Parallel c 0 x y := by
  cases h with
  | error h => exact .error _ _
  | ok a h =>
    obtain ⟨rfl, hle⟩ := h
    exact .ok a hle

end Parallel

/-! ### Parts that have no count -/

section Parts

variable (c : Cursor)

theorem parallel_byte : Parallel c 1 c.byte c.byte := by
  obtain ⟨pos, rest⟩ := c
  cases rest with
  | nil => exact .error _ _
  | cons b rest => exact .ok b (Nat.le_refl _)

theorem parallel_take (n : Nat) : Parallel c n (c.take n) (c.take n) := by
  unfold Cursor.take
  split
  next hholds =>
    have hle := Bytes.holds_iff.mp hholds
    refine .ok _ ?_
    simp only [Cursor.skip, List.length_drop]
    omega
  · exact .error _ _

theorem parallel_word (width : Nat) : Parallel c width (c.word width) (c.word width) :=
  (parallel_take c width).andThen fun bs after _ => .stay bs.toNatBE after

theorem parallel_next : Parallel c 1 (Compact.next c) (Compact.next c) := by
  unfold Compact.next
  split
  · exact .error _ _
  next item used hread =>
    have hwell := Compact.wellRead_of_read hread
    have hpos := hwell.pos
    have hle := hwell.le
    refine .ok item ?_
    simp only [Cursor.skip, List.length_drop]
    omega

variable {c} in
theorem parallel_many {α : Type} {read read' : Cursor → Except Fault (α × Cursor)} {room k : Nat}
    (h : ∀ c, c.rest.length ≤ room → Parallel c k (read c) (read' c)) (n : Nat)
    (hroom : c.rest.length ≤ room) :
    Parallel c (n * k) (Cursor.many read n c) (Cursor.many read' n c) := by
  induction n generalizing c with
  | zero => exact .ok [] (by omega)
  | succ n ih =>
    rw [Nat.succ_mul, Nat.add_comm]
    refine (h c hroom).bind fun a after hafter => ?_
    exact (ih (by omega)).andThen fun as after _ => .stay (a :: as) after

end Parts

namespace Term

/-! ### Terms -/

section Checks

variable {c : Cursor} {n k : Nat}

theorem parallel_checkCount {α : Type} (d d' : Decoder) {x y : Except Fault (α × Cursor)}
    (h : Parallel c k x y) (hn : n ≤ k) :
    Parallel c k (checkCount d n c >>= fun _ => x) (checkCount d' n c >>= fun _ => y) := by
  have hguard : ∀ (d : Decoder) (x : Except Fault (α × Cursor)), (checkCount d n c >>= fun _ => x) =
      if d.checkCounts && !Bytes.holds n c.rest then .error (.truncated c.pos) else x := by
    intro d x
    unfold checkCount
    split <;> rfl
  rw [hguard, hguard]
  exact h.guard hn _ _ _ _

/-- The fields of a term are read in parallel if the terms among them are. -/
theorem parallel_fields (d d' : Decoder) {fuel fuel' levels room : Nat}
    (hbelow : ∀ c, c.rest.length ≤ room →
      Parallel c 1 (readBelow d fuel levels c) (readBelow d' fuel' levels c))
    (tag : UInt8) (offset behind : Nat) :
    (cursorFields d fuel levels tag offset behind).Alike (Parallel.Within room) (fun _ _ => True)
      (cursorFields d' fuel' levels tag offset behind) where
  badTerm := trivial
  badName := trivial
  byte := by
    rintro c _ ⟨rfl, hc⟩
    exact (parallel_byte c).paired hc
  take n := by
    rintro c _ ⟨rfl, hc⟩
    exact (parallel_take c n).paired hc
  word width := by
    rintro c _ ⟨rfl, hc⟩
    exact (parallel_word c width).paired hc
  child := by
    rintro c _ ⟨rfl, hc⟩
    exact (hbelow c hc).paired hc
  children n := by
    rintro c _ ⟨rfl, hc⟩
    exact (parallel_checkCount d d' (parallel_many hbelow n hc) (by omega)).paired hc
  pairs n := by
    rintro c _ ⟨rfl, hc⟩
    have hpair : ∀ c, c.rest.length ≤ room →
        Parallel c 2 (readPair d fuel levels c) (readPair d' fuel' levels c) := by
      intro c hc
      refine (hbelow c hc).bind (l := 1) fun key after hkey => ?_
      refine (hbelow after (by omega)).andThen fun value after _ => ?_
      exact .stay (key, value) after
    exact (parallel_checkCount d d' (parallel_many hpair n hc) (Nat.le_refl _)).paired hc

end Checks

/-- One step: if the terms inside a term are read in parallel, so is the term. -/
theorem parallel_read_succ (d d' : Decoder) {fuel fuel' : Nat}
    (ih : ∀ levels c, c.rest.length ≤ min fuel fuel' →
      Parallel c 1 (read d fuel levels c) (read d' fuel' levels c))
    (levels : Nat) {c : Cursor} (hroom : c.rest.length ≤ min fuel fuel' + 1) :
    Parallel c 1 (read d (fuel + 1) levels c) (read d' (fuel' + 1) levels c) := by
  have hbelow : ∀ c, c.rest.length ≤ min fuel fuel' →
      Parallel c 1 (readBelow d fuel levels c) (readBelow d' fuel' levels c) := by
    intro c hc
    cases levels with
    | zero => exact .error _ _
    | succ levels => exact ih levels c hc
  rw [read_succ, read_succ]
  refine (parallel_byte c).andThen fun tag after hafter => ?_
  have hleft : after.rest.length ≤ min fuel fuel' := by omega
  have hfields := parallel_fields d d' (fun c hc => hbelow c (Nat.le_trans hc hleft)) tag c.pos
    after.pos
  apply Parallel.of_paired
  apply hfields.term
  · rintro _ c _ ⟨rfl, hc⟩
    exact (ih levels c (Nat.le_trans hc hleft)).paired hc
  · exact ⟨rfl, Nat.le_refl _⟩

/-- Where no bytes are left, no fuel helps. -/
theorem parallel_read_empty (d d' : Decoder) (fuel fuel' levels : Nat) {c : Cursor}
    (h : c.rest.length = 0) : Parallel c 1 (read d fuel levels c) (read d' fuel' levels c) := by
  obtain ⟨pos, rest⟩ := c
  cases List.eq_nil_of_length_eq_zero h
  cases fuel <;> cases fuel' <;> exact .error _ _

theorem parallel_read (d d' : Decoder) {fuel fuel' : Nat} (levels : Nat) (c : Cursor)
    (hroom : c.rest.length ≤ min fuel fuel') :
    Parallel c 1 (read d fuel levels c) (read d' fuel' levels c) := by
  induction fuel generalizing fuel' levels c with
  | zero => exact parallel_read_empty d d' 0 fuel' levels (by omega)
  | succ fuel ih =>
    cases fuel' with
    | zero => exact parallel_read_empty d d' (fuel + 1) 0 levels (by omega)
    | succ fuel' => exact parallel_read_succ d d' ih levels (by omega)

theorem readAll_eq_ok_iff (d d' : Decoder) (hdepth : d.maxDepth = d'.maxDepth) (c : Cursor)
    (t : Decoded) : readAll d c = .ok t ↔ readAll d' c = .ok t := by
  have hread := parallel_read d d' d.maxDepth c (Nat.le_min.mpr ⟨Nat.le_refl _, Nat.le_refl _⟩)
  unfold readAll
  rw [← hdepth]
  generalize read d c.rest.length d.maxDepth c = x at hread ⊢
  generalize read d' c.rest.length d.maxDepth c = y at hread ⊢
  cases hread with
  | error e e' => exact ⟨nofun, nofun⟩
  | ok a h => exact Iff.rfl

theorem decode_eq_ok_iff (d : Decoder) (b b' : Bool) (data : Bytes) (t : Decoded) :
    decode { d with checkCounts := b } data = .ok t ↔
      decode { d with checkCounts := b' } data = .ok t := by
  have hall := readAll_eq_ok_iff { d with checkCounts := b } { d with checkCounts := b' } rfl
  unfold decode
  split
  · exact Iff.rfl
  next v rest =>
    split
    · exact Iff.rfl
    · split
      next mark packed =>
        split
        · cases (Cursor.ofOffset packed 0).word 4 with
          | error e => exact Iff.rfl
          | ok found =>
            rw [ok_bind, ok_bind]
            cases hz : d.inflate found.2.rest found.1 with
            | error e => simp only [hz, error_bind]
            | ok inflated => simpa only [hz, ok_bind] using hall _ t
        · exact hall _ t
      · exact hall _ t

end Term

namespace Code

/-! ### Instructions -/

section Parts

variable (offset : Nat) (c : Cursor)

theorem parallel_readUnsigned : Parallel c 1 (readUnsigned c) (readUnsigned c) := by
  unfold readUnsigned
  refine (parallel_next c).andThen fun item after _ => ?_
  dsimp only
  split
  · exact .stay _ after
  · exact .error _ _

theorem parallel_readSmall : Parallel c 1 (readSmall offset c) (readSmall offset c) := by
  unfold readSmall
  refine (parallel_readUnsigned c).andThen fun n after _ => ?_
  exact .after _ fun n => .stay n after

theorem parallel_readAllocs (count : Nat) (need : AllocList) :
    Parallel c 0 (readAllocs offset count need c) (readAllocs offset count need c) := by
  induction count generalizing need c with
  | zero => exact .stay need c
  | succ count ih =>
    rw [readAllocs]
    refine (parallel_readUnsigned c).followed fun kind c _ => ?_
    refine (parallel_readSmall offset c).followed fun value c _ => ?_
    dsimp only
    split
    · exact ih c _
    · exact ih c _
    · exact ih c _
    · exact .error _ _

end Parts

variable (t : Tables) (b b' : Bool)

/-- One step: if the operands inside an operand are read in parallel, so is the operand. -/
theorem parallel_readOperand_succ {fuel fuel' : Nat}
    (ih : ∀ c, c.rest.length ≤ min fuel fuel' →
      Parallel c 1 (readOperand { t with checkCounts := b } fuel c)
        (readOperand { t with checkCounts := b' } fuel' c))
    {c : Cursor} (hroom : c.rest.length ≤ min fuel fuel' + 1) :
    Parallel c 1 (readOperand { t with checkCounts := b } (fuel + 1) c)
      (readOperand { t with checkCounts := b' } (fuel' + 1) c) := by
  rw [readOperand, readOperand]
  refine (parallel_next c).andThen fun item after hafter => ?_
  dsimp only
  cases item.tag with
  | unsigned => exact .stay _ after
  | integer => exact .stay _ after
  | char => exact .stay _ after
  | atom =>
    dsimp only
    split
    · exact .stay _ after
    · split
      · exact .stay _ after
      · exact .error _ _
  | x => exact .after _ fun n => .stay _ after
  | y => exact .after _ fun n => .stay _ after
  | label => exact .after _ fun n => .stay _ after
  | extended =>
    generalize item.value.toNat = kind
    rcases kind with _ | _ | _ | _ | _ | _ | kind
    · exact .error _ _
    · refine (parallel_readUnsigned after).followed fun len c hc => ?_
      have hitems := parallel_many ih len (show c.rest.length ≤ min fuel fuel' by omega)
      refine (Parallel.guard (n := len) (k := len * 1) ?_ (by omega) b b' _ _).mono (Nat.zero_le _)
      exact hitems.andThen fun items c _ => .stay _ c
    · refine (parallel_readSmall c.pos after).followed fun index c _ => ?_
      exact .stay _ c
    · refine (parallel_readUnsigned after).followed fun count after _ => ?_
      refine (parallel_readAllocs c.pos after count _).andThen fun need c _ => ?_
      exact .stay _ c
    · refine (parallel_readSmall c.pos after).followed fun index c _ => ?_
      dsimp only
      split
      · exact .stay _ c
      · exact .stay _ c
    · refine (ih after (by omega)).followed fun reg after _ => ?_
      refine (parallel_readSmall c.pos after).followed fun typeIndex c _ => ?_
      exact .stay _ c
    · exact .error _ _

theorem parallel_readOperand_empty (t t' : Tables) (fuel fuel' : Nat) {c : Cursor}
    (h : c.rest.length = 0) : Parallel c 1 (readOperand t fuel c) (readOperand t' fuel' c) := by
  obtain ⟨pos, rest⟩ := c
  cases List.eq_nil_of_length_eq_zero h
  cases fuel <;> cases fuel' <;> exact .error _ _

theorem parallel_readOperand {fuel fuel' : Nat} (c : Cursor)
    (hroom : c.rest.length ≤ min fuel fuel') :
    Parallel c 1 (readOperand { t with checkCounts := b } fuel c)
      (readOperand { t with checkCounts := b' } fuel' c) := by
  induction fuel generalizing fuel' c with
  | zero => exact parallel_readOperand_empty _ _ 0 fuel' (by omega)
  | succ fuel ih =>
    cases fuel' with
    | zero => exact parallel_readOperand_empty _ _ (fuel + 1) 0 (by omega)
    | succ fuel' => exact parallel_readOperand_succ t b b' ih (by omega)

theorem parallel_readInstruction (c : Cursor) :
    Parallel c 1 (readInstruction { t with checkCounts := b } c)
      (readInstruction { t with checkCounts := b' } c) := by
  rw [readInstruction, readInstruction]
  refine (parallel_byte c).andThen fun opcode after _ => ?_
  dsimp only
  cases Opcode.lookup opcode with
  | none => exact .error _ _
  | some info =>
    have hoperands := parallel_many (parallel_readOperand t b b') info.arity
      (show after.rest.length ≤ min after.rest.length after.rest.length by omega)
    refine hoperands.followed fun operands c _ => ?_
    exact .stay _ c

/-- Both runs read the same instructions up to the fault or the end. -/
theorem stream_checks (fuel : Nat) (c : Cursor) :
    (stream { t with checkCounts := b } fuel c).items =
        (stream { t with checkCounts := b' } fuel c).items ∧
      ((stream { t with checkCounts := b } fuel c).fault = none ↔
        (stream { t with checkCounts := b' } fuel c).fault = none) := by
  induction fuel generalizing c with
  | zero => exact ⟨rfl, Iff.rfl⟩
  | succ fuel ih =>
    have hread := parallel_readInstruction t b b' c
    rw [stream, stream]
    split
    · exact ⟨rfl, Iff.rfl⟩
    · generalize readInstruction { t with checkCounts := b } c = x at hread ⊢
      generalize readInstruction { t with checkCounts := b' } c = y at hread ⊢
      cases hread with
      | error e e' =>
        exact ⟨rfl, iff_of_false (Option.some_ne_none e) (Option.some_ne_none e')⟩
      | @ok i after h =>
        dsimp only
        split
        · exact ⟨rfl, Iff.rfl⟩
        · obtain ⟨hitems, hfault⟩ := ih after
          exact ⟨congrArg (List.cons (c.pos, i)) hitems, hfault⟩

theorem toExcept_eq_ok_iff {α : Type} (items : List α) {fault fault' : Option Fault}
    (h : fault = none ↔ fault' = none) (r : List α) :
    Run.toExcept ⟨items, fault⟩ = .ok r ↔ Run.toExcept ⟨items, fault'⟩ = .ok r := by
  cases fault with
  | none => rw [h.mp rfl]
  | some e =>
    cases fault' with
    | none => cases h.mpr rfl
    | some e' => exact ⟨nofun, nofun⟩

theorem instructions_checks (data : Bytes) (offset : Nat) :
    (∀ is, (instructions { t with checkCounts := b } data offset).value = .ok is ↔
      (instructions { t with checkCounts := b' } data offset).value = .ok is) ∧
    (instructions { t with checkCounts := b } data offset).notes =
      (instructions { t with checkCounts := b' } data offset).notes := by
  obtain ⟨hitems, hfault⟩ := stream_checks t b b' (Cursor.ofOffset data offset).rest.length
    (Cursor.ofOffset data offset)
  have hresolve : resolveImport { t with checkCounts := b } =
    resolveImport { t with checkCounts := b' } := rfl
  simp only [instructions, hitems, hresolve]
  refine ⟨fun is => ?_, trivial⟩
  exact toExcept_eq_ok_iff _ hfault is

end Code

/-- Checks of counts refuse nothing that can be read. A byte string decodes to a term, with the same
bytes left over, if and only if it does so without the checks, and code is read as the same
instructions, with the same notes; so where the checks change anything, it is the fault that is
reported. Nor does fuel stand in for a check: without them, any fuel that covers the bytes gives the
same terms and operands. -/
theorem checks_refuse_nothing (d : Term.Decoder) (t : Code.Tables) (data : Bytes) (offset : Nat) :
    (∀ r, Term.decode { d with checkCounts := true } data = .ok r ↔
      Term.decode { d with checkCounts := false } data = .ok r) ∧
    (∀ is, (Code.instructions { t with checkCounts := true } data offset).value = .ok is ↔
      (Code.instructions { t with checkCounts := false } data offset).value = .ok is) ∧
    (Code.instructions { t with checkCounts := true } data offset).notes =
      (Code.instructions { t with checkCounts := false } data offset).notes ∧
    ∀ (c : Cursor) (fuel : Nat), c.rest.length ≤ fuel →
      (∀ levels r, Term.read { d with checkCounts := true } c.rest.length levels c = .ok r ↔
        Term.read { d with checkCounts := false } fuel levels c = .ok r) ∧
      ∀ r, Code.readOperand { t with checkCounts := true } c.rest.length c = .ok r ↔
        Code.readOperand { t with checkCounts := false } fuel c = .ok r := by
  obtain ⟨hcode, hnotes⟩ := Code.instructions_checks t true false data offset
  refine ⟨Term.decode_eq_ok_iff d true false data, hcode, hnotes, fun c fuel hfuel => ⟨?_, ?_⟩⟩
  · intro levels r
    exact (Term.parallel_read _ _ levels c (by omega)).eq_ok_iff r
  · intro r
    exact (Code.parallel_readOperand t true false c (by omega)).eq_ok_iff r

-- A tuple of two with one byte behind it that starts no term: the count is refused before that byte
-- is looked at. A tuple that is complete is read, with fuel to spare.
theorem checks_refuse_nothing_early :
    let checked : Term.Decoder := { Term.Decoder.standard with checkCounts := true }
    let unchecked : Term.Decoder := { Term.Decoder.standard with checkCounts := false }
    Term.decode checked [131, 104, 2, 255] = .error (.truncated 3) ∧
    Term.decode unchecked [131, 104, 2, 255] = .error (.badTerm 255 3) ∧
    Term.read unchecked 9 512 ⟨0, [104, 1, 106]⟩ = .ok (.tuple [.nil], ⟨3, []⟩) := by
  intro checked unchecked
  obtain ⟨-, -, -, hfuel⟩ := checks_refuse_nothing .standard ⟨⟨[]⟩, ⟨[]⟩, none, true⟩ [] 0
  exact ⟨rfl, rfl, ((hfuel ⟨0, [104, 1, 106]⟩ 9 (by decide)).1 512 _).mp rfl⟩

end BeamScope
