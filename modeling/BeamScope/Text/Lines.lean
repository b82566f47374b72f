/-!
# Lines

A text as its lines. A line ends at a line feed, and a carriage return directly before the feed
belongs to the end. Nothing after the last line feed is no line.
-/

namespace BeamScope.Text

/-- `cs` without one carriage return at its end. -/
def dropCarriageReturn (cs : List Char) : List Char :=
  if cs.getLast? = some '\r' then cs.dropLast else cs

/-- The pieces of `cs` between line feeds, the piece after the last one included. -/
def splitFeeds : List Char → List (List Char)
  | [] => [[]]
  | c :: cs =>
    if c = '\n' then [] :: splitFeeds cs
    else
      match splitFeeds cs with
      | [] => [[c]]
      | piece :: pieces => (c :: piece) :: pieces

/-- The lines of `cs`. A piece that no line feed ends keeps its carriage return. -/
def lines (cs : List Char) : List (List Char) :=
  let pieces := splitFeeds cs
  let last := pieces.getLastD []
  pieces.dropLast.map dropCarriageReturn ++ (if last.isEmpty then [] else [last])

def linesOf (s : String) : List String := (lines s.toList).map String.ofList

/-- Texts one after another with `sep` between them. -/
def join (sep : List Char) : List (List Char) → List Char
  | [] => []
  | [s] => s
  | s :: rest => s ++ sep ++ join sep rest

theorem join_cons (sep s : List Char) (rest : List (List Char)) :
    join sep (s :: rest) = s ++ rest.flatMap (sep ++ ·) := by
  induction rest generalizing s with
  | nil => simp [join]
  | cons t rest ih => simp [join, ih]

/-- The parts of `cs` before and after the first `sep`. -/
def splitOnce? (sep : Char) : List Char → Option (List Char × List Char)
  | [] => none
  | c :: cs =>
    if c = sep then some ([], cs)
    else (splitOnce? sep cs).map fun (before, after) => (c :: before, after)

/-- What follows `start` at the beginning of `cs`. -/
def after? : (start cs : List Char) → Option (List Char)
  | [], cs => some cs
  | _ :: _, [] => none
  | s :: start, c :: cs => if s = c then after? start cs else none

theorem after?_eq_some {start cs rest : List Char} :
    after? start cs = some rest ↔ cs = start ++ rest := by
  fun_induction after? start cs with
  | case1 cs => simp
  | case2 s start => simp
  | case3 start c cs ih => simp [ih]
  | case4 s start c cs hne => simp [Ne.symm hne]

end BeamScope.Text
