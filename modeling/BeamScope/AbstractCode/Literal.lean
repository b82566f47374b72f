import BeamScope.Format.Literal

/-!
# Terms in source form

How atoms, strings and constants are written in a program text. An atom stands bare if it starts
with a small letter, goes on with letters, digits, `_` or `@`, and is no reserved word; a list of
printable characters is written as a string.
-/

namespace BeamScope.AbstractCode

open Text

/-- What stands for anything that has no written form here. -/
def unknownText : List Char := ['.', '.', '.']

def reservedWords : List String := [
    "after", "and", "andalso", "band", "begin", "bnot", "bor", "bsl", "bsr", "bxor", "case",
    "catch", "cond", "div", "else", "end", "fun", "if", "let", "maybe", "not", "of", "or",
    "orelse", "receive", "rem", "try", "when", "xor"]

def isBareAtom (name : String) : Bool :=
  Format.isPlainName name.toList && !reservedWords.contains name

def atomEscape (c : Char) : List Char :=
  if c = '\\' then ['\\', '\\'] else if c = '\'' then ['\\', '\''] else [c]

def atomChars (name : String) : List Char :=
  if isBareAtom name then name.toList else ['\''] ++ name.toList.flatMap atomEscape ++ ['\'']

def stringEscape (c : Char) : List Char :=
  if c = '"' then ['\\', '"']
  else if c = '\\' then ['\\', '\\']
  else if c = '\n' then ['\\', 'n']
  else if c = '\t' then ['\\', 't']
  else [c]

def stringChars (cs : List Char) : List Char := ['"'] ++ cs.flatMap stringEscape ++ ['"']

/-- A binary: as a string if it is text. -/
def binaryChars (bs : Bytes) : List Char :=
  let body :=
    match Utf8.decode? bs with
    | some s => stringChars s.toList
    | none => Format.byteNumbers bs
  ['<', '<'] ++ body ++ ['>', '>']

/-- The characters of a list of codes, if all are characters and none is a control. -/
def printable? (items : List Term) : Option (List Char) :=
  ((Term.list items).asString?.map String.toList).filter fun cs => cs.all fun c => !isControl c

def intChars (v : Int) : List Char := (toString v).toList

mutual

def literalChars : Term → List Char
  | .atom name => atomChars name
  | .integer v => intChars v
  | .float bits => (Format.numbers.render bits).toList
  | .binary bs => binaryChars bs
  | .nil => ['[', ']']
  | .list items =>
    match printable? items with
    | some cs => stringChars cs
    | none => Format.enclosed ['['] [']'] (literalsChars items)
  | .improperList items tail =>
    Format.enclosed ['['] [' ', '|', ' '] (literalsChars items) ++ literalChars tail ++ [']']
  | .tuple items => Format.enclosed ['\x7b'] ['\x7d'] (literalsChars items)
  | .map pairs => Format.enclosed ['#', '\x7b'] ['\x7d'] (literalPairs pairs)
  | .other text => text.toList

def literalsChars : List Term → List (List Char)
  | [] => []
  | t :: ts => literalChars t :: literalsChars ts

def literalPairs : List (Term × Term) → List (List Char)
  | [] => []
  | (k, v) :: rest =>
    (literalChars k ++ [' ', '=', '>', ' '] ++ literalChars v) :: literalPairs rest

end

def charChars (value : Term) : List Char :=
  match value.asInteger?.bind Term.char? with
  | some c =>
    if c = '\n' then ['$', '\\', 'n']
    else if c = '\t' then ['$', '\\', 't']
    else if c = ' ' then ['$', '\\', 's']
    else ['$', c]
  | none => unknownText

/-- A string constant; one that is no list of characters is written as it is. -/
def stringTermChars (value : Term) : List Char :=
  match value.asString? with
  | some s => stringChars s.toList
  | none => literalChars value

/-- One type of a segment of a binary. -/
def typeSpecChars : Term → List Char
  | .atom name => name.toList
  | .tuple [.atom key, value] => key.toList ++ [':'] ++ literalChars value
  | _ => unknownText

end BeamScope.AbstractCode
