import BeamScope.Bytes

/-!
# Compact numbers

The tag-and-number form in which a code chunk writes its operands and a line chunk its entries.
The low three bits of the first byte are the tag; the rest chooses one of four lengths:

```text
7 6 5 4 | 3 | 2 1 0
value     0   tag      one byte, value below 16
high  0 | 1   tag      two bytes, value below 2048
n     1 | 1   tag      n + 2 bytes follow, n below 7
1 1 1 1 | 1   tag      an unsigned compact n, then n + 9 bytes
```

`read` and `encode` are the two directions. Numbers are plain integers here; that a value has to be
a signed 64-bit number is a check of `read`, not a property of its arithmetic.
-/

namespace BeamScope

inductive Tag where
  /-- An untagged count, size or index. -/
  | unsigned
  /-- A signed integer literal. -/
  | integer
  /-- An atom index; 0 is the empty list. -/
  | atom
  | x
  | y
  | label
  /-- A character code. -/
  | char
  /-- The kind of an extended operand. -/
  | extended
  deriving Repr, DecidableEq, Inhabited

namespace Tag

/-- The tag with number `n` modulo 8. -/
def ofBits (n : Nat) : Tag :=
  match n % 8 with
  | 0 => unsigned
  | 1 => integer
  | 2 => atom
  | 3 => x
  | 4 => y
  | 5 => label
  | 6 => char
  | _ => extended

def bits : Tag → Nat
  | unsigned => 0
  | integer => 1
  | atom => 2
  | x => 3
  | y => 4
  | label => 5
  | char => 6
  | extended => 7

/-- The letter that names a tag in listings of raw operands. -/
def letter : Tag → String
  | unsigned => "u"
  | integer => "i"
  | atom => "a"
  | x => "x"
  | y => "y"
  | label => "f"
  | char => "h"
  | extended => "z"

def ofLetter? : String → Option Tag
  | "u" => some unsigned
  | "i" => some integer
  | "a" => some atom
  | "x" => some x
  | "y" => some y
  | "f" => some label
  | "h" => some char
  | "z" => some extended
  | _ => none

@[simp] theorem ofBits_bits (t : Tag) : ofBits t.bits = t := by cases t <;> rfl

theorem bits_lt (t : Tag) : t.bits < 8 := by cases t <;> decide

end Tag

structure Compact where
  tag : Tag
  value : Int
  deriving Repr, DecidableEq

namespace Compact

/-- A number of `len` bytes behind a header of `header` bytes, in an item that starts at `offset`:
two's complement for an integer literal, unsigned for every other tag. -/
def payload (tag : Tag) (offset header len : Nat) (bs : Bytes) : Except Fault (Compact × Nat) :=
  if Bytes.holds len bs then
    let digits := bs.take len
    let value : Int := if tag = .integer then Bytes.toIntBE digits else Bytes.toNatBE digits
    if isInt64 value then .ok (⟨tag, value⟩, header + len) else .error (.overflow offset)
  else .error (.truncated offset)

/-- The compact number at the start of the bytes that begin at `offset`, and how many bytes it
takes. -/
def read (offset : Nat) : Bytes → Except Fault (Compact × Nat)
  | [] => .error (.truncated offset)
  | b :: rest =>
    let n := b.toNat
    let tag := Tag.ofBits n
    if n / 8 % 2 = 0 then .ok (⟨tag, (n / 16 : Nat)⟩, 1)
    else if tag = .extended then .error (.badTag b offset)
    else if n / 16 % 2 = 0 then
      match rest with
      | [] => .error (.truncated offset)
      | low :: _ => .ok (⟨tag, (n / 32 * 256 + low.toNat : Nat)⟩, 2)
    else if n / 32 < 7 then payload tag offset 1 (n / 32 + 2) rest
    else
      match read (offset + 1) rest with
      | .error e => .error e
      | .ok (inner, used) =>
        if inner.tag = .unsigned then
          payload tag offset (1 + used) (inner.value.toNat + 9) (rest.drop used)
        else .error (.badTag (rest.headD 0) (offset + 1))

/-- The compact number at `offset` in `data`, and how many bytes it takes. -/
def decode (data : Bytes) (offset : Nat) : Except Fault (Compact × Nat) :=
  read offset (data.drop offset)

def next (c : Cursor) : Except Fault (Compact × Cursor) :=
  match read c.pos c.rest with
  | .error e => .error e
  | .ok (item, used) => .ok (item, c.skip used)

/-- Whether the first of two bytes only repeats the sign of the second. -/
def redundant (b next : UInt8) : Bool :=
  (b == 0x00 && next < 0x80) || (b == 0xff && 0x80 ≤ next)

/-- Leading bytes that only repeat the sign are dropped, as long as two bytes stay. -/
def trimSign : Bytes → Bytes
  | b :: next :: more :: bs =>
    if redundant b next then trimSign (next :: more :: bs) else b :: next :: more :: bs
  | bs => bs

/-- The least two's complement form of `value` in two to eight bytes. -/
def shortest (value : Int) : Bytes := trimSign (Bytes.ofIntBE 8 value)

/-- `value` under `tag` in the shortest form. -/
def encode (tag : Tag) (value : Int) : Bytes :=
  if 0 ≤ value ∧ value < 16 then [UInt8.ofNat (value.toNat * 16 + tag.bits)]
  else if 0 ≤ value ∧ value < 2048 then
    [UInt8.ofNat (value.toNat / 256 * 32 + 8 + tag.bits), UInt8.ofNat (value.toNat % 256)]
  else
    let digits := shortest value
    UInt8.ofNat ((digits.length - 2) * 32 + 24 + tag.bits) :: digits

/-- Compact numbers from the start of `bs` until the end or the first fault, each with the bytes
that it takes. Every item takes at least one byte, so `fuel` never has to exceed the bytes left. -/
def stream : (fuel : Nat) → Cursor → Run (Compact × Nat)
  | 0, _ => ⟨[], none⟩
  | fuel + 1, c =>
    if c.rest.isEmpty then ⟨[], none⟩
    else
      match read c.pos c.rest with
      | .error e => ⟨[], some e⟩
      | .ok (item, used) => Run.cons (item, used) (stream fuel (c.skip used))

def decodeAll (data : Bytes) : Run (Compact × Nat) := stream data.length (Cursor.ofOffset data 0)

end Compact

end BeamScope
