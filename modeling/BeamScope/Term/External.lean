import BeamScope.Decimal.Reading
import BeamScope.Term
import BeamScope.Text.Blank
import BeamScope.Text.Utf8
import BeamScope.Zlib

/-!
# Serialized terms

The binary form of terms: a version byte, then one tagged term, or a compressed tagged term. Lists,
tuples and maps may nest up to a limit. `read` goes down one level of nesting per call; its fuel
is the number of terms that may be open at once, and since every term takes at least its tag byte,
as much fuel as there are bytes is never used up before the bytes are.
-/

namespace BeamScope.Term

structure Decoder where
  /-- The inverse of compression, given the expected size. -/
  inflate : Bytes → Nat → Except Fault Bytes
  /-- How deep lists, tuples and maps may nest. -/
  maxDepth : Nat
  /-- Whether a count of elements is checked against the bytes that are left before any element is
  read. -/
  checkCounts : Bool

def Decoder.standard : Decoder := ⟨Zlib.inflate, 512, true⟩

theorem Decoder.standard_inflate : Decoder.standard.inflate = Zlib.inflate := rfl

/-- The first byte of every serialized term. -/
def version : UInt8 := 131

/-- Mark of a compressed term, behind the version byte. -/
def compressedMark : UInt8 := 80

/-- Refuse a count of items that cannot fit in what is left, one byte for each at least. -/
def checkCount (d : Decoder) (n : Nat) (c : Cursor) : Except Fault Unit :=
  if d.checkCounts && !Bytes.holds n c.rest then .error (.truncated c.pos) else .ok ()

/-- The number with the given sign and little-endian digits; past 64 bits only its decimal text is
kept. -/
def bigInteger (negative : Bool) (digits : Bytes) : Term :=
  let m := Bytes.toNatLE digits
  let v : Int := if negative then -(m : Int) else m
  if isInt64 v then .integer v else .other (toString v)

/-- A sign byte and `n` digits. -/
def readBig (n : Nat) (c : Cursor) : Except Fault (Term × Cursor) := do
  let (sign, c) ← c.byte
  let (digits, c) ← c.take n
  return (bigInteger (sign != 0) digits, c)

/-- An atom whose name has a length field of `width` bytes. -/
def readAtom (width : Nat) (utf8 : Bool) (c : Cursor) : Except Fault (Term × Cursor) := do
  let offset := c.pos
  let (n, c) ← c.word width
  let (bs, c) ← c.take n
  if utf8 then
    match Text.Utf8.decode? bs with
    | some name => return (.atom name, c)
    | none => .error (.badUtf8 offset)
  else return (.atom (Bytes.latin1 bs), c)

/-- A number written out in 31 characters, filled up with zero bytes. -/
def readFloatText (tag : UInt8) (offset : Nat) (c : Cursor) : Except Fault (Term × Cursor) := do
  let (bs, c) ← c.take 31
  let text := (Text.Utf8.decodeLossy bs).toList
  let text := Text.trim (Text.dropEndWhile (· == '\x00') text)
  match Decimal.read? text with
  | some bits => return (.float bits, c)
  | none => .error (.badTerm tag offset)

/-- The text that shows a string of bits: how many there are. -/
def bitStringText (size lastBits : Nat) : String :=
  let total := (size - 1) * 8 + (if size = 0 then 0 else lastBits)
  s!"<<_:{total}>>"

/-- One term at a cursor. `fuel` bounds how many terms are open at once, `levels` how much deeper
the nesting may go. -/
def read (d : Decoder) : (fuel levels : Nat) → Cursor → Except Fault (Term × Cursor)
  | 0, _, c => .error (.truncated c.pos)
  | fuel + 1, levels, c => do
    let offset := c.pos
    let (tag, c) ← c.byte
    let child (c : Cursor) : Except Fault (Term × Cursor) :=
      match levels with
      | 0 => .error (.termTooDeep c.pos)
      | levels + 1 => read d fuel levels c
    let children (n : Nat) (c : Cursor) : Except Fault (List Term × Cursor) := do
      checkCount d n c
      Cursor.many child n c
    match tag.toNat with
    | 70 =>
      let (bits, c) ← c.word 8
      return (.float (UInt64.ofNat bits), c)
    | 77 =>
      let (n, c) ← c.word 4
      let (lastBits, c) ← c.byte
      let (_, c) ← c.take n
      return (.other (bitStringText n lastBits.toNat), c)
    | 97 =>
      let (b, c) ← c.byte
      return (.integer b.toNat, c)
    | 98 =>
      let (bs, c) ← c.take 4
      return (.integer (Bytes.toIntBE bs), c)
    | 99 => readFloatText tag offset c
    | 100 => readAtom 2 false c
    | 104 =>
      let (n, c) ← c.byte
      let (items, c) ← children n.toNat c
      return (.tuple items, c)
    | 105 =>
      let (n, c) ← c.word 4
      let (items, c) ← children n c
      return (.tuple items, c)
    | 106 => return (.nil, c)
    | 107 =>
      let (n, c) ← c.word 2
      let (bs, c) ← c.take n
      if bs.isEmpty then return (.nil, c)
      else return (.list (bs.map fun b => .integer b.toNat), c)
    | 108 =>
      let (n, c) ← c.word 4
      let (items, c) ← children n c
      let (tail, c) ← child c
      match tail with
      | .nil => return (.list items, c)
      | tail => return (.improperList items tail, c)
    | 109 =>
      let (n, c) ← c.word 4
      let (bs, c) ← c.take n
      return (.binary bs, c)
    | 110 =>
      let (n, c) ← c.byte
      readBig n.toNat c
    | 111 =>
      let (n, c) ← c.word 4
      readBig n c
    | 112 =>
      let (size, c) ← c.word 4
      if size < 4 then .error (.badTerm tag offset)
      else
        let (_, c) ← c.take (size - 4)
        return (.other "#Fun", c)
    | 113 =>
      let (module, c) ← read d fuel levels c
      let (function, c) ← read d fuel levels c
      let (arity, c) ← read d fuel levels c
      match module, function, arity with
      | .atom m, .atom f, .integer a => return (.other s!"fun {m}:{f}/{a}", c)
      | _, _, _ => .error (.badTerm tag offset)
    | 115 => readAtom 1 false c
    | 116 =>
      let (n, c) ← c.word 4
      checkCount d (n * 2) c
      let (pairs, c) ← Cursor.many (fun c => do
        let (key, c) ← child c
        let (value, c) ← child c
        return ((key, value), c)) n c
      return (.map pairs, c)
    | 118 => readAtom 2 true c
    | 119 => readAtom 1 true c
    | _ => .error (.badTerm tag offset)

/-- A term and how many bytes stood behind it. -/
structure Decoded where
  term : Term
  trailing : Nat

/-- The term at a cursor, to which all bytes from there on belong. -/
def readAll (d : Decoder) (c : Cursor) : Except Fault Decoded := do
  let (term, rest) ← read d c.rest.length d.maxDepth c
  return ⟨term, rest.rest.length⟩

/-- The term that a byte string serializes, version byte included. -/
def decode (d : Decoder) (data : Bytes) : Except Fault Decoded :=
  match data with
  | [] => .error (.truncated 0)
  | v :: rest =>
    if v ≠ version then .error (.badTerm v 0)
    else
      match rest with
      | mark :: packed =>
        if mark = compressedMark then do
          let (size, c) ← (Cursor.ofOffset packed 0).word 4
          let inflated ← d.inflate c.rest size
          readAll d (Cursor.ofOffset inflated 0)
        else readAll d ⟨1, rest⟩
      | [] => readAll d ⟨1, []⟩

end BeamScope.Term
