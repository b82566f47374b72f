/-!
# UTF-8

Strict reading, which refuses what is not UTF-8, and lossy reading, which puts one replacement
character for each maximal piece that cannot be part of a character.
-/

namespace BeamScope.Text.Utf8

inductive Piece where
  /-- A character and how many bytes it takes. -/
  | char (c : Char) (size : Nat)
  /-- A number of bytes that begin no character. -/
  | bad (size : Nat)
  deriving Repr, DecidableEq

def isContinuation (b : UInt8) : Bool := 0x80 ≤ b && b ≤ 0xbf

/-- The range of the second byte after the lead byte `b`, and how many bytes the character has;
`none` if `b` leads no character of several bytes. The ranges leave out overlong forms, surrogates
and numbers past the last character. -/
def leadClass (b : UInt8) : Option (UInt8 × UInt8 × Nat) :=
  if 0xc2 ≤ b && b ≤ 0xdf then some (0x80, 0xbf, 2)
  else if b == 0xe0 then some (0xa0, 0xbf, 3)
  else if b == 0xed then some (0x80, 0x9f, 3)
  else if 0xe1 ≤ b && b ≤ 0xef then some (0x80, 0xbf, 3)
  else if b == 0xf0 then some (0x90, 0xbf, 4)
  else if 0xf1 ≤ b && b ≤ 0xf3 then some (0x80, 0xbf, 4)
  else if b == 0xf4 then some (0x80, 0x8f, 4)
  else none

/-- The low six bits of a continuation byte. -/
def six (b : UInt8) : Nat := b.toNat % 64

/-- The piece at the start of a byte string that begins with `b`. -/
def piece (b : UInt8) (rest : List UInt8) : Piece :=
  if b < 0x80 then .char (Char.ofNat b.toNat) 1
  else
    match leadClass b with
    | none => .bad 1
    | some (lo, hi, size) =>
      match rest with
      | [] => .bad 1
      | b₂ :: rest =>
        if !(lo ≤ b₂ && b₂ ≤ hi) then .bad 1
        else if size = 2 then .char (Char.ofNat (b.toNat % 32 * 64 + six b₂)) 2
        else
          match rest with
          | [] => .bad 2
          | b₃ :: rest =>
            if !isContinuation b₃ then .bad 2
            else if size = 3 then
              .char (Char.ofNat ((b.toNat % 16 * 64 + six b₂) * 64 + six b₃)) 3
            else
              match rest with
              | [] => .bad 3
              | b₄ :: _ =>
                if !isContinuation b₄ then .bad 3
                else
                  .char (Char.ofNat (((b.toNat % 8 * 64 + six b₂) * 64 + six b₃) * 64 + six b₄)) 4

/-- The pieces of a byte string; `skip` bytes at its start belong to the piece before. -/
def piecesFrom : (skip : Nat) → List UInt8 → List Piece
  | _, [] => []
  | skip + 1, _ :: rest => piecesFrom skip rest
  | 0, b :: rest =>
    match piece b rest with
    | .char c size => .char c size :: piecesFrom (size - 1) rest
    | .bad size => .bad size :: piecesFrom (size - 1) rest

/-- A byte string cut into characters and pieces that are none. -/
def pieces (bs : List UInt8) : List Piece := piecesFrom 0 bs

/-- The character of a piece, if it is one. -/
def Piece.char? : Piece → Option Char
  | .char c _ => some c
  | .bad _ => none

/-- The text that `bs` holds; `none` unless all of it is UTF-8. -/
def decode? (bs : List UInt8) : Option String := ((pieces bs).mapM Piece.char?).map String.ofList

/-- The text that `bs` holds, with U+FFFD for each piece that is no character. -/
def decodeLossy (bs : List UInt8) : String :=
  String.ofList ((pieces bs).map fun p => (p.char?).getD (Char.ofNat 0xfffd))

def encodeChar (c : Char) : List UInt8 := String.utf8EncodeChar c

def encode (s : String) : List UInt8 := s.toList.flatMap encodeChar

end BeamScope.Text.Utf8
