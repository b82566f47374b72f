import BeamScope.Proofs.Bytes

/-!
# Reading by position

The readers of this library hold what is left of a byte string, so they have nothing to index. A
program that holds the whole string and a position has: it takes elements and stretches, adds and
subtracts positions of 64 bits, and each of these can go wrong. Here such a program is a value of
`Checked`, in which going wrong is an outcome of its own, apart from the faults of the input
(`Stop.panic`), and so is having too many calls open at once (`Stop.exhausted`).

`Agrees` compares a step of such a program with a reader: they fail alike, or find the same value
and go on at the same place, which lies inside the string. What a program does is then read off the
reader that it agrees with, and that has no other outcomes than a value and a fault.
-/

namespace BeamScope.Positional

/-- Why a program stopped without a result. -/
inductive Stop where
  /-- The input is at fault. -/
  | fault (e : Fault)
  /-- An index, a stretch, a sum or a difference was out of range. -/
  | panic
  /-- More calls were open at once than allowed for. -/
  | exhausted
  deriving DecidableEq

abbrev Checked (α : Type) := Except Stop α

def fail {α : Type} (e : Fault) : Checked α := .error (.fault e)

/-- The outcome of a reader, as that of a program. -/
def returned {α : Type} : Except Fault α → Checked α
  | .ok a => .ok a
  | .error e => fail e

/-! ### What can go wrong -/

/-- A sum of 64 bits. -/
def add (a b : Nat) : Checked Nat := if a + b < 2 ^ 64 then .ok (a + b) else .error .panic

/-- A sum of 64 bits, for a caller who looks at the result. -/
def add? (a b : Nat) : Option Nat := if a + b < 2 ^ 64 then some (a + b) else none

def sub (a b : Nat) : Checked Nat := if b ≤ a then .ok (a - b) else .error .panic

def index {α : Type} (xs : List α) (i : Nat) : Checked α :=
  match xs[i]? with
  | some a => .ok a
  | none => .error .panic

/-- A stretch, for a caller who looks at the result. -/
def slice? {α : Type} (xs : List α) (start stop : Nat) : Option (List α) :=
  if start ≤ stop ∧ stop ≤ xs.length then some ((xs.drop start).take (stop - start)) else none

def slice {α : Type} (xs : List α) (start stop : Nat) : Checked (List α) :=
  match slice? xs start stop with
  | some s => .ok s
  | none => .error .panic

/-- A copy into a buffer of `n` bytes, which has to be filled exactly. -/
def filled (n : Nat) (bs : Bytes) : Checked Bytes :=
  if bs.length = n then .ok bs else .error .panic

/-- The first `n` bytes, one index after the other. -/
def digits (bs : Bytes) : Nat → Checked Bytes
  | 0 => .ok []
  | n + 1 => do
    let front ← digits bs n
    let b ← index bs n
    return front ++ [b]

def orFail {α : Type} (o : Option α) (e : Fault) : Checked α :=
  match o with
  | some a => .ok a
  | none => fail e

/-- The outcome of a program whose faults the caller looks at. -/
def attempt {α : Type} : Checked α → Checked (Except Fault α)
  | .ok a => .ok (.ok a)
  | .error (.fault e) => .ok (.error e)
  | .error stop => .error stop

/-- The big-endian number of 32 bits at `pos`. -/
def word (data : Bytes) (pos : Nat) : Checked Nat := do
  let stop ← add pos 4
  let bs ← orFail (slice? data pos stop) (.truncated pos)
  return Bytes.toNatBE (← digits bs 4)

def many {α : Type} (read : Nat → Checked (α × Nat)) : Nat → Nat → Checked (List α × Nat)
  | 0, pos => .ok ([], pos)
  | n + 1, pos => do
    let (a, pos) ← read pos
    let (as, pos) ← many read n pos
    return (a :: as, pos)

/-! ### When nothing goes wrong -/

section Outcomes

variable {α β : Type}

@[simp] theorem checked_ok_bind (a : α) (f : α → Checked β) :
    ((Except.ok a : Checked α) >>= f) = f a := rfl

@[simp] theorem fail_bind (e : Fault) (f : α → Checked β) : (fail e >>= f) = fail e := rfl

@[simp] theorem pure_eq_ok (a : α) : (pure a : Checked α) = .ok a := rfl

@[simp] theorem orFail_some (a : α) (e : Fault) : orFail (some a) e = .ok a := rfl

@[simp] theorem orFail_none (e : Fault) : (orFail none e : Checked α) = fail e := rfl

@[simp] theorem returned_ok (a : α) : returned (.ok a) = .ok a := rfl

@[simp] theorem returned_error (e : Fault) : (returned (.error e) : Checked α) = fail e := rfl

@[simp] theorem attempt_returned (r : Except Fault α) : attempt (returned r) = .ok r := by
  cases r <;> rfl

theorem returned_bind (r : Except Fault α) (f : α → Except Fault β) :
    returned (r >>= f) = returned r >>= fun a => returned (f a) := by
  cases r <;> rfl

/-- A reader has no other outcomes than a value and a fault. -/
theorem returned_ne_panic (r : Except Fault α) : returned r ≠ .error .panic := by
  cases r <;> simp [fail]

theorem add_eq_ok {a b : Nat} (h : a + b < 2 ^ 64) : add a b = .ok (a + b) := if_pos h

theorem add?_eq_some {a b : Nat} (h : a + b < 2 ^ 64) : add? a b = some (a + b) := if_pos h

theorem sub_eq_ok {a b : Nat} (h : b ≤ a) : sub a b = .ok (a - b) := if_pos h

theorem index_eq_ok {xs : List α} {i : Nat} {a : α} (h : xs[i]? = some a) :
    index xs i = .ok a := by
  simp only [index, h]

theorem slice?_eq_some {xs : List α} {start stop : Nat} (h : start ≤ stop)
    (hs : stop ≤ xs.length) : slice? xs start stop = some ((xs.drop start).take (stop - start)) :=
  if_pos ⟨h, hs⟩

theorem slice?_eq_none {xs : List α} {start stop : Nat} (h : xs.length < stop) :
    slice? xs start stop = none := if_neg (by omega)

theorem slice_eq_ok {xs : List α} {start stop : Nat} (h : start ≤ stop) (hs : stop ≤ xs.length) :
    slice xs start stop = .ok ((xs.drop start).take (stop - start)) := by
  simp only [slice, slice?_eq_some h hs]

theorem slice_to_end {xs : List α} {start : Nat} (h : start ≤ xs.length) :
    slice xs start xs.length = .ok (xs.drop start) := by
  rw [slice_eq_ok h (Nat.le_refl _), List.take_of_length_le (Nat.le_of_eq List.length_drop)]

theorem filled_eq_ok {n : Nat} {bs : Bytes} (h : bs.length = n) : filled n bs = .ok bs := if_pos h

theorem digits_eq_take {bs : Bytes} {n : Nat} (h : n ≤ bs.length) :
    digits bs n = .ok (bs.take n) := by
  induction n with
  | zero => rfl
  | succ n ih =>
    have hn : bs[n]? = some bs[n] := List.getElem?_eq_getElem (by omega)
    simp only [digits, ih (by omega), index_eq_ok hn, checked_ok_bind, pure_eq_ok]
    rw [List.take_succ_eq_append_getElem (by omega)]

theorem digits_eq_ok {bs : Bytes} {n : Nat} (h : bs.length = n) : digits bs n = .ok bs := by
  rw [digits_eq_take (Nat.le_of_eq h.symm), List.take_of_length_le (Nat.le_of_eq h)]

theorem toNatBE_take_four_lt (bs : Bytes) : Bytes.toNatBE (bs.take 4) < 2 ^ 32 := by
  have hlen : (bs.take 4).length ≤ 4 := List.length_take_le 4 bs
  calc Bytes.toNatBE (bs.take 4) < 256 ^ (bs.take 4).length := Bytes.toNatBE_lt _
    _ ≤ 256 ^ 4 := Nat.pow_le_pow_right (by omega) hlen
    _ = 2 ^ 32 := by decide

theorem drop_of_getElem?_none {data : Bytes} {pos : Nat} (h : data[pos]? = none) :
    data.drop pos = [] :=
  List.drop_eq_nil_of_le (List.getElem?_eq_none_iff.mp h)

theorem drop_of_getElem?_some {data : Bytes} {pos : Nat} {b : UInt8} (h : data[pos]? = some b) :
    data.drop pos = b :: data.drop (pos + 1) := by
  obtain ⟨hlt, hget⟩ := List.getElem?_eq_some_iff.mp h
  rw [List.drop_eq_getElem_cons hlt, hget]

theorem length_stretch {data : Bytes} {pos n : Nat} (h : pos + n ≤ data.length) :
    ((data.drop pos).take n).length = n := by
  rw [List.length_take, List.length_drop]
  omega

end Outcomes

/-! ### Agreement with a reader -/

section Agreement

variable {α β : Type} {data : Bytes}

/-- A step of a program and one of a reader on `data`: they fail alike, or find the same and go on
at the same place, which is not before `least`. -/
def Agrees (data : Bytes) (least : Nat) (x : Checked (α × Nat))
    (r : Except Fault (α × Cursor)) : Prop :=
  match r with
  | .error e => x = fail e
  | .ok (a, c) =>
    ∃ pos, c = Cursor.ofOffset data pos ∧ least ≤ pos ∧ pos ≤ data.length ∧ x = .ok (a, pos)

theorem Agrees.ok {least pos : Nat} (a : α) (hleast : least ≤ pos) (hpos : pos ≤ data.length) :
    Agrees data least (.ok (a, pos)) (.ok (a, Cursor.ofOffset data pos)) :=
  ⟨pos, rfl, hleast, hpos, rfl⟩

theorem Agrees.fail (least : Nat) (e : Fault) :
    Agrees data least (fail e : Checked (α × Nat)) (.error e) := rfl

theorem Agrees.mono {least least' : Nat} {x : Checked (α × Nat)}
    {r : Except Fault (α × Cursor)} (h : Agrees data least x r) (hle : least' ≤ least) :
    Agrees data least' x r := by
  cases r with
  | error e => exact h
  | ok found =>
    obtain ⟨pos, hc, hleast, hpos, hx⟩ := h
    exact ⟨pos, hc, by omega, hpos, hx⟩

theorem Agrees.bind {least least' : Nat} {x : Checked (α × Nat)}
    {r : Except Fault (α × Cursor)} {f : α × Nat → Checked (β × Nat)}
    {g : α × Cursor → Except Fault (β × Cursor)} (h : Agrees data least x r)
    (hf : ∀ a pos, r = .ok (a, Cursor.ofOffset data pos) → least ≤ pos → pos ≤ data.length →
      Agrees data least' (f (a, pos)) (g (a, Cursor.ofOffset data pos))) :
    Agrees data least' (x >>= f) (r >>= g) := by
  cases r with
  | error e =>
    have hx : x = Positional.fail e := h
    subst hx
    exact Agrees.fail _ _
  | ok found =>
    obtain ⟨a, c⟩ := found
    obtain ⟨pos, rfl, hleast, hpos, rfl⟩ := h
    exact hf a pos rfl hleast hpos

/-- A result that does not move the position, before a step that agrees. -/
theorem Agrees.after {γ : Type} {least : Nat} {x : Checked γ} {r : Except Fault γ}
    (h : x = returned r) {f : γ → Checked (α × Nat)} {g : γ → Except Fault (α × Cursor)}
    (hf : ∀ a, Agrees data least (f a) (g a)) : Agrees data least (x >>= f) (r >>= g) := by
  subst h
  cases r with
  | error e => exact Agrees.fail _ _
  | ok a => exact hf a

/-- A step that agrees, and then a result. -/
theorem Agrees.bind_returned {least : Nat} {x : Checked (α × Nat)}
    {r : Except Fault (α × Cursor)} {f : α × Nat → Checked β} {g : α × Cursor → Except Fault β}
    (h : Agrees data least x r)
    (hf : ∀ a pos, r = .ok (a, Cursor.ofOffset data pos) → least ≤ pos → pos ≤ data.length →
      f (a, pos) = returned (g (a, Cursor.ofOffset data pos))) :
    (x >>= f) = returned (r >>= g) := by
  cases r with
  | error e =>
    have hx : x = Positional.fail e := h
    subst hx
    rfl
  | ok found =>
    obtain ⟨a, c⟩ := found
    obtain ⟨pos, rfl, hleast, hpos, rfl⟩ := h
    exact hf a pos rfl hleast hpos

theorem Agrees.map_fst {least : Nat} {x : Checked (α × Nat)} {r : Except Fault (α × Cursor)}
    (h : Agrees data least x r) (f : α → β) :
    (x >>= fun found => pure (f found.1)) = returned ((r.map Prod.fst).map f) := by
  have hmap : (r.map Prod.fst).map f = r >>= fun found => .ok (f found.1) := by cases r <;> rfl
  rw [hmap]
  exact h.bind_returned fun _ _ _ _ _ => rfl

theorem agrees_many {read : Nat → Checked (α × Nat)} {reader : Cursor → Except Fault (α × Cursor)}
    {start : Nat}
    (h : ∀ pos, start ≤ pos → pos ≤ data.length →
      Agrees data pos (read pos) (reader (Cursor.ofOffset data pos)))
    (n : Nat) {pos : Nat} (hstart : start ≤ pos) (hpos : pos ≤ data.length) :
    Agrees data pos (many read n pos) (Cursor.many reader n (Cursor.ofOffset data pos)) := by
  induction n generalizing pos with
  | zero => exact Agrees.ok [] (Nat.le_refl _) hpos
  | succ n ih =>
    refine (h pos hstart hpos).bind fun a next _ hnext hlen => ?_
    refine (ih (by omega) hlen).bind fun as last _ hlast hlen => ?_
    exact Agrees.ok (a :: as) (by omega) hlen

theorem skip_ofOffset (data : Bytes) (pos n : Nat) :
    (Cursor.ofOffset data pos).skip n = Cursor.ofOffset data (pos + n) := by
  simp only [Cursor.ofOffset, Cursor.skip, List.drop_drop]

theorem holds_ofOffset (data : Bytes) (pos n : Nat) :
    Bytes.holds n (Cursor.ofOffset data pos).rest = !decide (data.length - pos < n) := by
  rw [Bool.eq_iff_iff, Bytes.holds_iff]
  simp only [Cursor.ofOffset, List.length_drop, Bool.not_eq_true', decide_eq_false_iff_not]
  omega

theorem take_ofOffset_ok {pos n : Nat} (h : pos + n ≤ data.length) :
    (Cursor.ofOffset data pos).take n =
      .ok ((data.drop pos).take n, Cursor.ofOffset data (pos + n)) := by
  have hh : Bytes.holds n (Cursor.ofOffset data pos).rest = true := by
    rw [holds_ofOffset, decide_eq_false (by omega), Bool.not_false]
  simp only [Cursor.take, skip_ofOffset, hh, if_true]
  rfl

theorem take_ofOffset_error {pos n : Nat} (hpos : pos ≤ data.length) (h : data.length < pos + n) :
    (Cursor.ofOffset data pos).take n = .error (.truncated pos) := by
  have hh : Bytes.holds n (Cursor.ofOffset data pos).rest = false := by
    rw [holds_ofOffset, decide_eq_true (by omega), Bool.not_true]
  simp only [Cursor.take, hh, Bool.false_eq_true, if_false]
  rfl

theorem word_eq_ok {pos : Nat} (hlen : data.length < 2 ^ 63) (h : pos + 4 ≤ data.length) :
    word data pos = .ok (Bytes.toNatBE ((data.drop pos).take 4)) := by
  simp only [word, add_eq_ok (show pos + 4 < 2 ^ 64 by omega), checked_ok_bind,
    slice?_eq_some (show pos ≤ pos + 4 by omega) h, orFail_some, Nat.add_sub_cancel_left,
    digits_eq_ok (length_stretch h), pure_eq_ok]

theorem word_eq_fail {pos : Nat} (hlen : data.length < 2 ^ 63) (hpos : pos ≤ data.length)
    (h : data.length < pos + 4) : word data pos = fail (.truncated pos) := by
  simp only [word, add_eq_ok (show pos + 4 < 2 ^ 64 by omega), checked_ok_bind, slice?_eq_none h,
    orFail_none, fail_bind]

/-- A number of 32 bits at a place inside the string is there for both, or missing for both. -/
theorem word_cases {pos : Nat} (hpos : pos ≤ data.length) (hlen : data.length < 2 ^ 63) :
    (∃ n, word data pos = .ok n ∧ pos + 4 ≤ data.length ∧ n < 2 ^ 32 ∧
      (Cursor.ofOffset data pos).word 4 = .ok (n, Cursor.ofOffset data (pos + 4))) ∨
    (word data pos = fail (.truncated pos) ∧
      (Cursor.ofOffset data pos).word 4 = .error (.truncated pos)) := by
  by_cases h : pos + 4 ≤ data.length
  · refine Or.inl ⟨_, word_eq_ok hlen h, h, toNatBE_take_four_lt _, ?_⟩
    simp only [Cursor.word, take_ofOffset_ok h, ok_bind]
    rfl
  · have hend : data.length < pos + 4 := by omega
    refine Or.inr ⟨word_eq_fail hlen hpos hend, ?_⟩
    simp only [Cursor.word, take_ofOffset_error hpos hend, error_bind]

end Agreement

end BeamScope.Positional
