import BeamScope.Fault

/-!
# Byte strings

Chunks, terms and files are lists of bytes. This module holds the numbers written in them
(big-endian words, little-endian magnitudes, two's complement) and `Cursor`, a place in a byte
string: the bytes that are left together with the offset at which they start, so that a reader
never indexes and a fault can always name its place.
-/

namespace BeamScope

abbrev Bytes := List UInt8

namespace Bytes

/-- Whether at least `n` bytes are left; looks at no more than `n` of them. -/
def holds : Nat → Bytes → Bool
  | 0, _ => true
  | _ + 1, [] => false
  | n + 1, _ :: bs => holds n bs

theorem holds_iff {n : Nat} {bs : Bytes} : holds n bs = true ↔ n ≤ bs.length := by
  induction n generalizing bs with
  | zero => simp [holds]
  | succ n ih => cases bs <;> simp [holds, ih]

/-- The number whose base-256 digits are `bs`, most significant first. -/
def toNatBE (bs : Bytes) : Nat := bs.foldl (fun n b => n * 256 + b.toNat) 0

/-- The number whose base-256 digits are `bs`, least significant first. -/
def toNatLE : Bytes → Nat
  | [] => 0
  | b :: bs => b.toNat + 256 * toNatLE bs

/-- `n` modulo `256 ^ width` as `width` digits, most significant first. -/
def ofNatBE : (width : Nat) → Nat → Bytes
  | 0, _ => []
  | width + 1, n => UInt8.ofNat (n / 256 ^ width % 256) :: ofNatBE width n

/-- The two's complement reading of `bs`: the first bit carries the sign. -/
def toIntBE (bs : Bytes) : Int :=
  match bs with
  | [] => 0
  | b :: _ => if b.toNat < 128 then toNatBE bs else (toNatBE bs : Int) - 256 ^ bs.length

/-- `v` in two's complement, `width` bytes. -/
def ofIntBE (width : Nat) (v : Int) : Bytes := ofNatBE width (v % 256 ^ width).toNat

@[simp] theorem length_ofNatBE (width n : Nat) : (ofNatBE width n).length = width := by
  induction width with
  | zero => rfl
  | succ width ih => simp [ofNatBE, ih]

/-- The bytes as characters of the same number. -/
def latin1 (bs : Bytes) : String := String.ofList (bs.map fun b => Char.ofNat b.toNat)

end Bytes

/-- Whether `v` is a signed number of 64 bits. -/
def isInt64 (v : Int) : Bool := -(2 ^ 63) ≤ v && v < 2 ^ 63

/-- Whether `n` is an unsigned number of 32 bits. -/
def isUInt32 (n : Nat) : Bool := n < 2 ^ 32

structure Cursor where
  /-- Offset of the next byte. -/
  pos : Nat
  /-- The bytes from there to the end. -/
  rest : Bytes
  deriving Repr, DecidableEq

namespace Cursor

def ofOffset (data : Bytes) (offset : Nat) : Cursor := ⟨offset, data.drop offset⟩

def skip (n : Nat) (c : Cursor) : Cursor := ⟨c.pos + n, c.rest.drop n⟩

def take (n : Nat) (c : Cursor) : Except Fault (Bytes × Cursor) :=
  if Bytes.holds n c.rest then .ok (c.rest.take n, c.skip n) else .error (.truncated c.pos)

def byte (c : Cursor) : Except Fault (UInt8 × Cursor) :=
  match c.rest with
  | [] => .error (.truncated c.pos)
  | b :: rest => .ok (b, ⟨c.pos + 1, rest⟩)

/-- The big-endian number in the next `width` bytes. -/
def word (width : Nat) (c : Cursor) : Except Fault (Nat × Cursor) := do
  let (bs, c) ← c.take width
  return (bs.toNatBE, c)

/-- `n` items one after another, each read by `read`. -/
def many (read : Cursor → Except Fault (α × Cursor)) :
    Nat → Cursor → Except Fault (List α × Cursor)
  | 0, c => .ok ([], c)
  | n + 1, c => do
    let (a, c) ← read c
    let (as, c) ← many read n c
    return (a :: as, c)

end Cursor

/-- What was read of a sequence: the items up to the place where reading ended, and the fault that
ended it early, if one did. -/
structure Run (α : Type) where
  items : List α
  fault : Option Fault

namespace Run

/-- An item in front of the rest of the run. -/
def cons (a : α) (r : Run α) : Run α := ⟨a :: r.items, r.fault⟩

/-- All items, or the fault; a sequence that broke off gives no items. -/
def toExcept (r : Run α) : Except Fault (List α) :=
  match r.fault with
  | none => .ok r.items
  | some e => .error e

/-- `n` items one after another, each read by `read`. -/
def many (read : Cursor → Except Fault (α × Cursor)) : Nat → Cursor → Run α
  | 0, _ => ⟨[], none⟩
  | n + 1, c =>
    match read c with
    | .error e => ⟨[], some e⟩
    | .ok (a, c) => cons a (many read n c)

end Run

end BeamScope
