import BeamScope.Decimal.Shortest
import BeamScope.Term
import BeamScope.Text.Blank
import BeamScope.Text.Lines
import BeamScope.Text.Utf8

/-!
# Literals as text

How atoms and terms appear in a listing. Text that could be mistaken for something else is quoted;
a binary is shown as text when it is one, and as numbers otherwise. A long literal is cut to a
width, and a binary says how many bytes it has.
-/

namespace BeamScope.Format

open Text

/-- Floating-point numbers: positional from 0.0001 up to, not including, 10^16. -/
def numbers : Decimal.Layout := ⟨-4, 16, "inf", "NaN"⟩

def escapeChar (c : Char) : List Char :=
  if c = '\\' then ['\\', '\\'] else if c = '"' then ['\\', '"'] else [c]

def escape (cs : List Char) : List Char := cs.flatMap escapeChar

/-- Whether `c` may follow the first letter of a plain name. -/
def isNameChar (c : Char) : Bool := c.isAlphanum || c == '_' || c == '@'

def isPlainName : List Char → Bool
  | [] => false
  | c :: cs => c.isLower && cs.all isNameChar

/-- `:name`, in quotes unless it is plain. -/
def atomChars (name : List Char) : List Char :=
  if isPlainName name then ':' :: name else [':', '"'] ++ escape name ++ ['"']

def atom (name : String) : String := String.ofList (atomChars name.toList)

def byteNumbers (bs : Bytes) : List Char := join [','] (bs.map fun b => Nat.toDigits 10 b.toNat)

/-- A binary: as text in quotes if it is text without control characters. -/
def binaryChars (bs : Bytes) : List Char :=
  let body :=
    match Utf8.decode? bs with
    | some s =>
      if s.toList.any isControl then byteNumbers bs else ['"'] ++ escape s.toList ++ ['"']
    | none => byteNumbers bs
  ['<', '<'] ++ body ++ ['>', '>']

/-- Items with commas, between an opening and a closing text. -/
def enclosed (opening closing : List Char) (items : List (List Char)) : List Char :=
  opening ++ join [',', ' '] items ++ closing

mutual

def termChars : Term → List Char
  | .atom name => atomChars name.toList
  | .integer v => (toString v).toList
  | .float bits => (numbers.render bits).toList
  | .binary bs => binaryChars bs
  | .nil => ['[', ']']
  | .list items => enclosed ['['] [']'] (termsChars items)
  | .improperList items tail =>
    enclosed ['['] [' ', '|', ' '] (termsChars items) ++ termChars tail ++ [']']
  | .tuple items => enclosed ['\x7b'] ['\x7d'] (termsChars items)
  | .map pairs => enclosed ['#', '\x7b'] ['\x7d'] (pairsChars pairs)
  | .other text => text.toList

/-- Each of a list of terms in full. -/
def termsChars : List Term → List (List Char)
  | [] => []
  | t :: ts => termChars t :: termsChars ts

def pairsChars : List (Term × Term) → List (List Char)
  | [] => []
  | (k, v) :: rest => (termChars k ++ [' ', '=', '>', ' '] ++ termChars v) :: pairsChars rest

end

/-- The first `width` characters of a text that has more, and three points. -/
def truncateChars (width : Nat) (cs : List Char) : List Char :=
  if (cs.drop width).isEmpty then cs else cs.take width ++ ['.', '.', '.']

def truncate (s : String) (width : Nat) : String := String.ofList (truncateChars width s.toList)

/-- What a binary of `n` bytes says about its length. -/
def sizeNote (n : Nat) : List Char := s!" ({n} bytes)".toList

/-- A term cut to a width. The length of a binary is kept when there is room for it. -/
def literalChars (width : Nat) (t : Term) : List Char :=
  match t with
  | .binary bs =>
    let note := sizeNote bs.length
    if note.length ≤ width then truncateChars (width - note.length) (termChars t) ++ note
    else truncateChars width (termChars t ++ note)
  | _ => truncateChars width (termChars t)

def literal (t : Term) (width : Nat) : String := String.ofList (literalChars width t)

end BeamScope.Format
