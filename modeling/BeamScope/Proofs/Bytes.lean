import BeamScope.Bytes

/-!
# Reading back what was written

Numbers written with `ofNatBE` and `ofIntBE` are read back by `toNatBE` and `toIntBE`. A reader
finds `a` in `bs` (`Cursor.Reads`) if it returns `a` wherever `bs` stands and whatever follows, and
stops exactly behind it. The readers of `Cursor` are described by what they find, and by what they
say of bytes that break off (`Cursor.Delimits`).
-/

namespace BeamScope

@[simp] theorem ok_bind {α β : Type} (a : α) (f : α → Except Fault β) :
    (Except.ok a >>= f) = f a := rfl

@[simp] theorem error_bind {α β : Type} (e : Fault) (f : α → Except Fault β) :
    (Except.error e >>= f) = Except.error e := rfl

theorem bind_eq_ok {ε α β : Type} {x : Except ε α} {f : α → Except ε β} {b : β}
    (h : (x >>= f) = .ok b) : ∃ a, x = .ok a ∧ f a = .ok b := by
  cases x with
  | error e => cases h
  | ok a => exact ⟨a, rfl, h⟩

namespace Bytes

theorem holds_append (bs suf : Bytes) : holds bs.length (bs ++ suf) = true := by
  rw [holds_iff, List.length_append]
  omega

theorem holds_take_of_lt {bs : Bytes} {k : Nat} (h : k < bs.length) :
    holds bs.length (bs.take k) = false := by
  rw [Bool.eq_false_iff, ne_eq, holds_iff, List.length_take]
  omega

/-! ### Unsigned numbers -/

theorem foldl_digits (bs : Bytes) (n : Nat) :
    bs.foldl (fun n b => n * 256 + b.toNat) n = n * 256 ^ bs.length + toNatBE bs := by
  induction bs generalizing n with
  | nil => simp [toNatBE]
  | cons b bs ih =>
    have h := ih b.toNat
    simp only [toNatBE, List.foldl_cons, List.length_cons, Nat.zero_mul, Nat.zero_add] at h ⊢
    rw [ih, h, Nat.add_mul, Nat.pow_succ']
    simp only [toNatBE]
    rw [Nat.mul_assoc, Nat.add_assoc]

theorem toNatBE_cons (b : UInt8) (bs : Bytes) :
    toNatBE (b :: bs) = b.toNat * 256 ^ bs.length + toNatBE bs := by
  have h := foldl_digits bs b.toNat
  simpa [toNatBE] using h

theorem toNatBE_lt (bs : Bytes) : toNatBE bs < 256 ^ bs.length := by
  induction bs with
  | nil => simp [toNatBE]
  | cons b bs ih =>
    have hb : b.toNat + 1 ≤ 256 := b.toNat_lt
    have hm : (b.toNat + 1) * 256 ^ bs.length ≤ 256 * 256 ^ bs.length :=
      Nat.mul_le_mul_right _ hb
    rw [toNatBE_cons, List.length_cons, Nat.pow_succ']
    rw [Nat.add_mul] at hm
    omega

theorem toNatBE_ofNatBE (width n : Nat) : toNatBE (ofNatBE width n) = n % 256 ^ width := by
  induction width with
  | zero => simp [ofNatBE, toNatBE, Nat.mod_one]
  | succ width ih =>
    have hd : (UInt8.ofNat (n / 256 ^ width % 256)).toNat = n / 256 ^ width % 256 := by
      rw [UInt8.toNat_ofNat']
      omega
    rw [ofNatBE, toNatBE_cons, ih, hd, length_ofNatBE, Nat.pow_succ, Nat.mod_mul]
    rw [Nat.mul_comm (256 ^ width), Nat.add_comm]

theorem toNatBE_ofNatBE_of_lt {width n : Nat} (h : n < 256 ^ width) :
    toNatBE (ofNatBE width n) = n := by
  rw [toNatBE_ofNatBE, Nat.mod_eq_of_lt h]

/-! ### Signed numbers -/

theorem toIntBE_cons (b : UInt8) (bs : Bytes) :
    toIntBE (b :: bs) =
      if b.toNat < 128 then (toNatBE (b :: bs) : Int)
      else (toNatBE (b :: bs) : Int) - 256 * 256 ^ bs.length := by
  simp only [toIntBE, List.length_cons, Int.pow_succ']

@[simp] theorem length_ofIntBE (width : Nat) (v : Int) : (ofIntBE width v).length = width :=
  length_ofNatBE _ _

/-- The first bit of a number decides its sign. -/
theorem toIntBE_eq_of_lt {bs : Bytes} {width : Nat} (hlen : bs.length = width + 1)
    (h : toNatBE bs < 128 * 256 ^ width) : toIntBE bs = toNatBE bs := by
  cases bs with
  | nil => simp at hlen
  | cons b bs =>
    have hl : bs.length = width := by simpa using hlen
    have hb : b.toNat < 128 := by
      rw [toNatBE_cons, hl] at h
      refine Nat.lt_of_not_le fun hn => ?_
      have hm : 128 * 256 ^ width ≤ b.toNat * 256 ^ width := Nat.mul_le_mul_right _ hn
      omega
    rw [toIntBE_cons, if_pos hb]

theorem toIntBE_eq_of_le {bs : Bytes} {width : Nat} (hlen : bs.length = width + 1)
    (h : 128 * 256 ^ width ≤ toNatBE bs) :
    toIntBE bs = (toNatBE bs : Int) - 256 * 256 ^ width := by
  cases bs with
  | nil => simp at hlen
  | cons b bs =>
    have hl : bs.length = width := by simpa using hlen
    have hb : ¬b.toNat < 128 := by
      intro hn
      have hr := toNatBE_lt bs
      have hm : (b.toNat + 1) * 256 ^ width ≤ 128 * 256 ^ width := Nat.mul_le_mul_right _ hn
      rw [Nat.add_mul] at hm
      rw [toNatBE_cons, hl] at h
      rw [hl] at hr
      omega
    rw [toIntBE_cons, if_neg hb, hl]

theorem toIntBE_ofIntBE (width : Nat) {v : Int} (lo : -(128 * 256 ^ width : Nat) ≤ v)
    (hi : v < (128 * 256 ^ width : Nat)) : toIntBE (ofIntBE (width + 1) v) = v := by
  have hpos : 0 < 256 ^ width := Nat.pow_pos (by decide)
  have hp : (256 : Int) ^ (width + 1) = 256 * ((256 ^ width : Nat) : Int) := by
    rw [Int.pow_succ', Int.natCast_pow]
    rfl
  have hq : ((256 : Int) ^ width) = ((256 ^ width : Nat) : Int) := by
    rw [Int.natCast_pow]
    rfl
  have hlen : (ofIntBE (width + 1) v).length = width + 1 := length_ofIntBE _ _
  have hlt : (v % 256 ^ (width + 1)).toNat < 256 ^ (width + 1) := by
    have hn := Int.emod_lt_of_pos v (show (0 : Int) < 256 * ((256 ^ width : Nat) : Int) by omega)
    rw [Nat.pow_succ', hp]
    omega
  have hval : toNatBE (ofIntBE (width + 1) v) = (v % 256 ^ (width + 1)).toNat :=
    toNatBE_ofNatBE_of_lt hlt
  rw [hp] at hval
  by_cases hv : 0 ≤ v
  · have hmod : v % (256 * ((256 ^ width : Nat) : Int)) = v :=
      Int.emod_eq_of_lt hv (by omega)
    rw [hmod] at hval
    rw [toIntBE_eq_of_lt hlen (by omega), hval]
    omega
  · have hmod : v % (256 * ((256 ^ width : Nat) : Int)) = v + 256 * ((256 ^ width : Nat) : Int) := by
      rw [← Int.add_emod_right]
      exact Int.emod_eq_of_lt (by omega) (by omega)
    rw [hmod] at hval
    rw [toIntBE_eq_of_le hlen (by omega), hval, hq]
    omega

end Bytes

/-! ### Readers -/

namespace Cursor

/-- Wherever `bs` stands and whatever follows it, `read` returns `a` there and stops behind it. -/
def Reads {α : Type} (read : Cursor → Except Fault (α × Cursor)) (bs : Bytes) (a : α) : Prop :=
  ∀ pos suf, read ⟨pos, bs ++ suf⟩ = .ok (a, ⟨pos + bs.length, suf⟩)

@[simp] theorem byte_cons (pos : Nat) (b : UInt8) (rest : Bytes) :
    byte ⟨pos, b :: rest⟩ = .ok (b, ⟨pos + 1, rest⟩) := rfl

theorem skip_append {bs : Bytes} {n : Nat} (h : bs.length = n) (pos : Nat) (suf : Bytes) :
    skip n ⟨pos, bs ++ suf⟩ = ⟨pos + n, suf⟩ := by
  subst h
  simp [skip]

theorem reads_take {bs : Bytes} {n : Nat} (h : bs.length = n) : Reads (take n) bs bs := by
  intro pos suf
  subst h
  simp only [take, Bytes.holds_append, if_true, skip_append rfl, List.take_left]

theorem reads_word {width n : Nat} (h : n < 256 ^ width) :
    Reads (word width) (Bytes.ofNatBE width n) n := by
  intro pos suf
  simp only [word, reads_take (Bytes.length_ofNatBE width n) pos suf, ok_bind,
    Bytes.toNatBE_ofNatBE_of_lt h]
  rfl

theorem reads_many_cons {α : Type} {read : Cursor → Except Fault (α × Cursor)} {n : Nat} {a : α}
    {as : List α} {bs bs' : Bytes} (ha : Reads read bs a) (has : Reads (many read n) bs' as) :
    Reads (many read (n + 1)) (bs ++ bs') (a :: as) := by
  intro pos suf
  simp only [many, List.append_assoc, ha _ _, has _ _, ok_bind, List.length_append, Nat.add_assoc]
  rfl

/-! ### Readers that see where something ends -/

/-- `read` finds `a` in `bs`, and of `bs` cut off anywhere it says that bytes are missing. -/
structure Delimits {α : Type} (read : Cursor → Except Fault (α × Cursor)) (bs : Bytes) (a : α) :
    Prop where
  reads : Reads read bs a
  cut : ∀ (pos : Nat) {k : Nat}, k < bs.length →
    ∃ place, read ⟨pos, bs.take k⟩ = .error (.truncated place)

section Delimits

variable {α β γ : Type}

theorem delimits_pure (a : α) : Delimits (fun c => .ok (a, c)) [] a where
  reads _ _ := rfl
  cut _ _ hk := absurd hk (Nat.not_lt_zero _)

theorem delimits_byte (b : UInt8) : Delimits byte [b] b where
  reads _ _ := rfl
  cut pos k hk := by
    have hzero : k = 0 := Nat.lt_one_iff.mp hk
    subst hzero
    exact ⟨pos, rfl⟩

theorem delimits_take {bs : Bytes} {n : Nat} (h : bs.length = n) : Delimits (take n) bs bs where
  reads := reads_take h
  cut pos k hk := by
    subst h
    refine ⟨pos, ?_⟩
    simp only [take, Bytes.holds_take_of_lt hk, Bool.false_eq_true, if_false]

/-- What is read first has to end before what is read next begins. -/
theorem Delimits.bind {read : Cursor → Except Fault (α × Cursor)}
    {next : Cursor → α × Cursor → Except Fault (β × Cursor)} {bs bs' : Bytes} {a : α} {b : β}
    (ha : Delimits read bs a) (hb : ∀ start, Delimits (fun c => next start (a, c)) bs' b) :
    Delimits (fun c => read c >>= next c) (bs ++ bs') b where
  reads pos suf := by
    have hread := (hb ⟨pos, bs ++ (bs' ++ suf)⟩).reads (pos + bs.length) suf
    simp only [List.append_assoc, ha.reads _ _, ok_bind, hread, List.length_append, Nat.add_assoc]
  cut pos k hk := by
    rw [List.length_append] at hk
    by_cases hfirst : k < bs.length
    · obtain ⟨place, hread⟩ := ha.cut pos hfirst
      refine ⟨place, ?_⟩
      simp only [List.take_append_of_le_length (Nat.le_of_lt hfirst), hread, error_bind]
    · have htake : (bs ++ bs').take k = bs ++ bs'.take (k - bs.length) := by
        rw [List.take_append, List.take_of_length_le (Nat.le_of_not_lt hfirst)]
      obtain ⟨place, hread⟩ := (hb ⟨pos, bs ++ bs'.take (k - bs.length)⟩).cut (pos + bs.length)
        (show k - bs.length < bs'.length by omega)
      refine ⟨place, ?_⟩
      simp only [htake, ha.reads _ _, ok_bind, hread]

theorem Delimits.returning {read : Cursor → Except Fault (α × Cursor)}
    {next : Cursor → α × Cursor → Except Fault (β × Cursor)} {bs : Bytes} {a : α} {b : β}
    (ha : Delimits read bs a) (hb : ∀ start c, next start (a, c) = .ok (b, c)) :
    Delimits (fun c => read c >>= next c) bs b := by
  have hpure : ∀ start, Delimits (fun c => next start (a, c)) [] b := by
    intro start
    rw [funext (hb start)]
    exact delimits_pure b
  have hbind := ha.bind hpure
  rwa [List.append_nil] at hbind

theorem Delimits.map {read : Cursor → Except Fault (α × Cursor)} {bs : Bytes} {a : α}
    (h : Delimits read bs a) (f : α → β) :
    Delimits (fun c => read c >>= fun found => .ok (f found.1, found.2)) bs (f a) :=
  h.returning fun _ _ => rfl

theorem delimits_word {width n : Nat} (h : n < 256 ^ width) :
    Delimits (word width) (Bytes.ofNatBE width n) n := by
  have hdigits := (delimits_take (Bytes.length_ofNatBE width n)).map Bytes.toNatBE
  rwa [Bytes.toNatBE_ofNatBE_of_lt h] at hdigits

theorem delimits_many {read : Cursor → Except Fault (α × Cursor)} {write : γ → Bytes}
    {value : γ → α} {xs : List γ} (h : ∀ x ∈ xs, Delimits read (write x) (value x)) :
    Delimits (many read xs.length) (xs.flatMap write) (xs.map value) := by
  induction xs with
  | nil => exact delimits_pure []
  | cons x xs ih =>
    have hx := h x (List.mem_cons_self ..)
    have hxs := ih fun y hy => h y (List.mem_cons_of_mem _ hy)
    exact hx.bind fun _ => hxs.map (value x :: ·)

end Delimits

end Cursor

end BeamScope
