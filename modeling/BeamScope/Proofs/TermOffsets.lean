import BeamScope.Proofs.Positional.Term
import BeamScope.Proofs.TermLayout

/-!
# Where a term stands does not matter

A plain term stands behind the version byte, so it is read from position 1 on; a compressed one is
read from position 0 of what it inflates to. Apart from the positions that are reported, a reader
does the same at both places: it fails for the same reason, or finds the same and has the same left
over (`Displaced`).
-/

namespace BeamScope

/-- The same fault at a place `k` bytes further on. -/
inductive Fault.Moved (k : Nat) : Fault → Fault → Prop where
  | truncated (offset : Nat) : Moved k (.truncated offset) (.truncated (offset + k))
  | badUtf8 (offset : Nat) : Moved k (.badUtf8 offset) (.badUtf8 (offset + k))
  | badTerm (tag : UInt8) (offset : Nat) : Moved k (.badTerm tag offset) (.badTerm tag (offset + k))
  | termTooDeep (offset : Nat) : Moved k (.termTooDeep offset) (.termTooDeep (offset + k))

/-- The same bytes `k` bytes further on. -/
def Cursor.moved (k : Nat) (c : Cursor) : Cursor := ⟨c.pos + k, c.rest⟩

theorem Cursor.skip_moved (k n : Nat) (c : Cursor) :
    (c.moved k).skip n = (c.skip n).moved k := by
  unfold skip moved
  rw [Nat.add_right_comm]

/-- The outcomes of reading the same bytes at two places, the second `k` bytes further on. -/
abbrev Displaced {α : Type} (k : Nat) (x y : Except Fault (α × Cursor)) : Prop :=
  Paired (fun c c' => c' = c.moved k) (Fault.Moved k) x y

section Readers

variable {α : Type} {k : Nat} (c : Cursor)

theorem displaced_byte : Displaced k c.byte (c.moved k).byte := by
  obtain ⟨pos, rest⟩ := c
  cases rest with
  | nil => exact .error (.truncated pos)
  | cons b rest =>
    unfold Cursor.byte Cursor.moved
    rw [Nat.add_right_comm]
    exact .ok b rfl

theorem displaced_take (n : Nat) : Displaced k (c.take n) ((c.moved k).take n) := by
  unfold Cursor.take
  rw [Cursor.skip_moved]
  by_cases hholds : Bytes.holds n c.rest = true
  · rw [if_pos hholds, if_pos (show Bytes.holds n (c.moved k).rest = true from hholds)]
    exact .ok (c.rest.take n) rfl
  · rw [if_neg hholds, if_neg (show ¬Bytes.holds n (c.moved k).rest = true from hholds)]
    exact .error (.truncated c.pos)

theorem displaced_word (width : Nat) : Displaced k (c.word width) ((c.moved k).word width) :=
  (displaced_take c width).bind fun bs _ _ hc => .ok bs.toNatBE hc

theorem displaced_many {read : Cursor → Except Fault (α × Cursor)}
    (h : ∀ c, Displaced k (read c) (read (c.moved k))) (n : Nat) :
    Displaced k (Cursor.many read n c) (Cursor.many read n (c.moved k)) := by
  induction n generalizing c with
  | zero => exact .ok [] rfl
  | succ n ih =>
    unfold Cursor.many
    refine (h c).bind fun a c _ hc => ?_
    subst hc
    refine (ih c).bind fun as c _ hc => ?_
    exact .ok (a :: as) hc

end Readers

namespace Term

variable {k : Nat} (d : Decoder) (c : Cursor)

/-! ### Terms -/

/-- A count is compared with what is left, which is the same at both places. -/
theorem displaced_checkCount {α : Type} (n : Nat) {x y : Except Fault (α × Cursor)}
    (h : Displaced k x y) :
    Displaced k (checkCount d n c >>= fun _ => x) (checkCount d n (c.moved k) >>= fun _ => y) := by
  unfold checkCount Cursor.moved
  split
  · exact .error (.truncated c.pos)
  · exact h

theorem displaced_fields {fuel levels : Nat}
    (hbelow : ∀ c, Displaced k (readBelow d fuel levels c) (readBelow d fuel levels (c.moved k)))
    (tag : UInt8) (offset behind : Nat) :
    (cursorFields d fuel levels tag offset behind).Alike (fun c c' => c' = c.moved k)
      (Fault.Moved k) (cursorFields d fuel levels tag (offset + k) (behind + k)) where
  badTerm := .badTerm tag offset
  badName := .badUtf8 behind
  byte := by
    rintro c _ rfl
    exact displaced_byte c
  take n := by
    rintro c _ rfl
    exact displaced_take c n
  word width := by
    rintro c _ rfl
    exact displaced_word c width
  child := by
    rintro c _ rfl
    exact hbelow c
  children n := by
    rintro c _ rfl
    exact displaced_checkCount d c n (displaced_many c hbelow n)
  pairs n := by
    rintro c _ rfl
    refine displaced_checkCount d c (n * 2) (displaced_many c (fun c => ?_) n)
    refine (hbelow c).bind fun key c _ hc => ?_
    subst hc
    refine (hbelow c).bind fun value c _ hc => ?_
    exact .ok (key, value) hc

/-- One step: if the terms inside a term are read alike at both places, so is the term. -/
theorem displaced_read_succ {d : Decoder} {fuel : Nat}
    (ih : ∀ levels c, Displaced k (read d fuel levels c) (read d fuel levels (c.moved k)))
    (levels : Nat) (c : Cursor) :
    Displaced k (read d (fuel + 1) levels c) (read d (fuel + 1) levels (c.moved k)) := by
  have hbelow : ∀ c, Displaced k (readBelow d fuel levels c)
      (readBelow d fuel levels (c.moved k)) := by
    intro c
    cases levels with
    | zero => exact .error (.termTooDeep c.pos)
    | succ levels => exact ih levels c
  rw [read_succ, read_succ]
  refine (displaced_byte c).bind fun tag after _ hafter => ?_
  subst hafter
  apply (displaced_fields d hbelow tag c.pos after.pos).term
  · intro _ c _ hc
    subst hc
    exact ih levels c
  · rfl

theorem displaced_read (fuel levels : Nat) :
    Displaced k (read d fuel levels c) (read d fuel levels (c.moved k)) := by
  induction fuel generalizing levels c with
  | zero => exact .error (.truncated c.pos)
  | succ fuel ih => exact displaced_read_succ (fun levels c => ih c levels) levels c

/-! ### Whole terms -/

theorem readAll_moved :
    (∃ t, readAll d c = .ok t ∧ readAll d (c.moved k) = .ok t) ∨
      ∃ e e', readAll d c = .error e ∧ readAll d (c.moved k) = .error e' ∧ Fault.Moved k e e' := by
  have hread := displaced_read (k := k) d c c.rest.length d.maxDepth
  unfold readAll
  change (∃ t, _ ∧ (read d c.rest.length d.maxDepth (c.moved k) >>= _) = .ok t) ∨
    ∃ e e', _ ∧ (read d c.rest.length d.maxDepth (c.moved k) >>= _) = .error e' ∧ _
  generalize read d c.rest.length d.maxDepth c = x at hread ⊢
  generalize read d c.rest.length d.maxDepth (c.moved k) = y at hread ⊢
  cases hread with
  | error h => exact .inr ⟨_, _, rfl, rfl, h⟩
  | @ok t after _ hafter =>
    subst hafter
    exact .inl ⟨⟨t, after.rest.length⟩, rfl, rfl⟩

theorem decode_plain {b : Bytes} (h : b.head? ≠ some compressedMark) :
    decode d (version :: b) = readAll d ⟨1, b⟩ := by
  have hversion : ¬version ≠ version := fun hne => hne rfl
  simp only [decode, if_neg hversion]
  cases b with
  | nil => rfl
  | cons mark rest =>
    have hmark : mark ≠ compressedMark := fun heq => h (congrArg some heq)
    simp only [if_neg hmark]

theorem decode_compressed {b z : Bytes} (hlength : b.length < 2 ^ 32)
    (hz : d.inflate z b.length = .ok b) :
    decode d (version :: compressedMark :: (Bytes.ofNatBE 4 b.length ++ z)) =
      readAll d ⟨0, b⟩ := by
  have hversion : ¬version ≠ version := fun hne => hne rfl
  have hword := Cursor.reads_word (show b.length < 256 ^ 4 from hlength) 0 z
  simp only [decode, if_neg hversion, if_true, Cursor.ofOffset, List.drop_zero, hword, ok_bind, hz]

/-- A compressed term and the plain one mean the same. Both decode to the same term, with the same
bytes left over, or both are refused for the same reason, at an offset that counts the version byte
only for the plain one. -/
theorem decode_compressed_as_plain (d : Decoder) (b z : Bytes)
    (hb : b.head? ≠ some compressedMark) (hlength : b.length < 2 ^ 32)
    (hz : d.inflate z b.length = .ok b) :
    let compressed := decode d (version :: compressedMark :: (Bytes.ofNatBE 4 b.length ++ z))
    let plain := decode d (version :: b)
    (∃ t, compressed = .ok t ∧ plain = .ok t) ∨
      ∃ e e', compressed = .error e ∧ plain = .error e' ∧ Fault.Moved 1 e e' := by
  intro compressed plain
  have hcompressed : compressed = readAll d ⟨0, b⟩ := decode_compressed d hlength hz
  have hplain : plain = readAll d (Cursor.moved 1 ⟨0, b⟩) := decode_plain d hb
  rw [hcompressed, hplain]
  exact readAll_moved d ⟨0, b⟩

-- A tuple of two that breaks off behind its first element: the count is refused at the byte behind
-- it, which is the third of the plain term and the second of what the stream inflates to.
theorem decode_compressed_as_plain_cut :
    let b : Bytes := [104, 2, 106]
    let z : Bytes := [120, 1, 1, 3, 0, 252, 255, 104, 2, 106, 1, 169, 0, 213]
    Decoder.standard.inflate z b.length = .ok b ∧
      decode .standard (version :: b) = .error (.truncated 3) ∧
      decode .standard (version :: compressedMark :: (Bytes.ofNatBE 4 b.length ++ z)) =
        .error (.truncated 2) := by
  intro b z
  have hunzip : Zlib.decompress? z = some b := by decide +kernel +zetaReduce
  have hz : Decoder.standard.inflate z b.length = .ok b := by
    rw [Decoder.standard_inflate]
    exact Zlib.inflate_eq_ok hunzip
  have hplain : decode .standard (version :: b) = .error (.truncated 3) := rfl
  refine ⟨hz, hplain, ?_⟩
  rcases decode_compressed_as_plain .standard b z (by decide +zetaReduce) (by decide +zetaReduce) hz
    with ⟨t, -, hok⟩ | ⟨e, e', hcompressed, herror, hmoved⟩
  · rw [hplain] at hok
    cases hok
  · rw [hplain] at herror
    cases herror
    cases hmoved
    exact hcompressed

end Term

end BeamScope
