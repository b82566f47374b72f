import BeamScope.Yaml.Scalar

/-!
# YAML in block style

Values made of texts, numbers, lists and records, written one item a line. What is in a record is
indented by two; a list is not indented below its key, and a list in a list starts on its line.
-/

namespace BeamScope

inductive Yaml where
  | null
  | number (n : Nat)
  | text (s : String)
  | list (items : List Yaml)
  | record (fields : List (String × Yaml))

namespace Yaml

/-- How a value is written behind what it belongs to. -/
inductive Written where
  /-- On the same line. -/
  | sameLine (text : String)
  /-- On lines of its own, below a key in the same column. -/
  | listLines (lines : List String)
  /-- On lines of its own, below a key indented by two. -/
  | recordLines (lines : List String)

/-- A value as an item of a list. -/
def itemLines : Written → List String
  | .sameLine s => ["- " ++ s]
  | .listLines lines => hang lines
  | .recordLines lines => hang lines
where
  /-- The first line behind a dash, the others below it. -/
  hang : List String → List String
    | [] => []
    | first :: rest => ("- " ++ first) :: rest.map ("  " ++ ·)

/-- A value as a field of a record. -/
def fieldLines (key : String) : Written → List String
  | .sameLine s => [key ++ ": " ++ s]
  | .listLines lines => (key ++ ":") :: lines
  | .recordLines lines => (key ++ ":") :: lines.map ("  " ++ ·)

mutual

def written : Yaml → Written
  | .null => .sameLine "null"
  | .number n => .sameLine (toString n)
  | .text s => .sameLine (scalar s)
  | .list items => if items.isEmpty then .sameLine "[]" else .listLines (writtenItems items)
  | .record fields =>
    if fields.isEmpty then .sameLine "\x7b\x7d" else .recordLines (writtenFields fields)

def writtenItems : List Yaml → List String
  | [] => []
  | v :: vs => itemLines (written v) ++ writtenItems vs

def writtenFields : List (String × Yaml) → List String
  | [] => []
  | (k, v) :: rest => fieldLines (scalar k) (written v) ++ writtenFields rest

end

def render (v : Yaml) : String :=
  let lines :=
    match written v with
    | .sameLine s => [s]
    | .listLines lines => lines
    | .recordLines lines => lines
  String.join (lines.map (· ++ "\n"))

end Yaml

end BeamScope
