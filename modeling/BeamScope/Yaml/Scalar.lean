import BeamScope.Decimal.Reading
import BeamScope.Text.Lines

/-!
# Text in YAML

A text stands plain in YAML unless a reader would take it for something else: for a null, a truth
value or a number, for an indicator of structure, or for nothing at all. Then it stands in single
quotes, with a quote inside written twice. Texts here have no line breaks.
-/

namespace BeamScope.Yaml

open Text

/-- A number in `base` below `bound`, digits only. -/
def isNatural (base bound : Nat) (cs : List Char) : Bool :=
  !cs.isEmpty && (natOfDigits? base 0 cs).any (· < bound)

def dropSign : List Char → List Char
  | '+' :: cs => cs
  | '-' :: cs => cs
  | cs => cs

/-- Digits that start with a zero which is not the whole number. -/
def hasLeadingZero (cs : List Char) : Bool :=
  match dropSign cs with
  | '0' :: ds => !ds.isEmpty && ds.all Char.isDigit
  | _ => false

/-- Whether an unsigned text is a number with one of the base marks, below `bound`. -/
def isMarked (bound : Nat) (cs : List Char) : Bool :=
  match cs with
  | '0' :: 'x' :: ds => isNatural 16 bound ds
  | '0' :: 'o' :: ds => isNatural 8 bound ds
  | '0' :: 'b' :: ds => isNatural 2 bound ds
  | _ => false

/-- Whether a text reads as an integer of 128 bits. -/
def isInteger (cs : List Char) : Bool :=
  match cs with
  | '-' :: ds => isMarked (2 ^ 127 + 1) ds || (!hasLeadingZero cs && isNatural 10 (2 ^ 127 + 1) ds)
  | '+' :: ds => isMarked (2 ^ 128) ds || (!hasLeadingZero cs && isNatural 10 (2 ^ 128) ds)
  | _ => isMarked (2 ^ 128) cs || (!hasLeadingZero cs && isNatural 10 (2 ^ 128) cs)

/-- Whether bits are those of a finite number. -/
def isFinite (bits : UInt64) : Bool :=
  match Binary64.parts bits with
  | .finite _ _ _ => true
  | _ => false

def floatWords : List String :=
  [".inf", ".Inf", ".INF", "+.inf", "+.Inf", "+.INF", "-.inf", "-.Inf", "-.INF",
    ".nan", ".NaN", ".NAN"]

/-- Whether a text reads as a floating-point number. -/
def isFloat (cs : List Char) : Bool :=
  floatWords.contains (String.ofList cs) ||
    match cs with
    | '+' :: ds =>
      match ds with
      | '+' :: _ => false
      | '-' :: _ => false
      | _ => (Decimal.read? ds).any isFinite
    | _ => (Decimal.read? cs).any isFinite

/-- Words for null and for the truth values. -/
def words : List String :=
  ["null", "Null", "NULL", "~", "true", "True", "TRUE", "false", "False", "FALSE"]

/-- Whether a text reads as something that is no text. -/
def readsAsOther (s : String) : Bool :=
  let cs := s.toList
  cs.isEmpty || words.contains s || isInteger cs || hasLeadingZero cs || isFloat cs

def indicators : List Char :=
  ['#', ',', '[', ']', '\x7b', '\x7d', '&', '*', '!', '|', '>', '\'', '"', '%', '@', '\x60']

/-- Whether a text ends here or goes on with a blank. -/
def blankOrEnd : List Char → Bool
  | [] => true
  | c :: _ => c == ' ' || c == '\t'

/-- Whether the text, behind `before`, holds a colon at the end of a word or a hash mark at the
start of one. -/
def hasMark (before : Char) : List Char → Bool
  | [] => false
  | c :: cs =>
    (c == ':' && blankOrEnd cs) || (c == '#' && (before == ' ' || before == '\t')) || hasMark c cs

/-- Whether a text cannot stand plain because of its characters. -/
def hasIndicator (cs : List Char) : Bool :=
  match cs with
  | [] => true
  | c :: rest =>
    c == ' ' || cs.getLast? == some ' ' ||
    (after? ['-', '-', '-'] cs).isSome || (after? ['.', '.', '.'] cs).isSome ||
    indicators.contains c || ((c == '?' || c == '-') && blankOrEnd rest) || hasMark 'x' cs

def singleQuoted (cs : List Char) : List Char :=
  ['\''] ++ cs.flatMap (fun c => if c = '\'' then ['\'', '\''] else [c]) ++ ['\'']

def scalar (s : String) : String :=
  if readsAsOther s || hasIndicator s.toList then String.ofList (singleQuoted s.toList) else s

end BeamScope.Yaml
