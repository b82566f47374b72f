/-!
# Ascending lists

Sets and maps as lists in ascending order without repetition, so that the order in which they are
enumerated is part of what they are.
-/

namespace BeamScope.Ascending

/-- `a` put in its place; a list that holds it already stays as it is. -/
def insert (cmp : α → α → Ordering) (a : α) : List α → List α
  | [] => [a]
  | b :: bs =>
    match cmp a b with
    | .lt => a :: b :: bs
    | .eq => b :: bs
    | .gt => b :: insert cmp a bs

/-- `v` put under the key `k`, in place of what was there. -/
def insertKey (k : Nat) (v : α) : List (Nat × α) → List (Nat × α)
  | [] => [(k, v)]
  | (j, w) :: rest =>
    if k < j then (k, v) :: (j, w) :: rest
    else if k = j then (k, v) :: rest
    else (j, w) :: insertKey k v rest

/-- The map of a list of pairs; of two pairs with one key the later counts. -/
def ofPairs (pairs : List (Nat × α)) : List (Nat × α) :=
  pairs.foldl (fun m p => insertKey p.1 p.2 m) []

end BeamScope.Ascending
