import BeamScope.Bytes

/-!
# Terms

The values that literal tables and debug chunks hold. A floating-point number is kept as its 64
bits, so that terms can be compared and written back exactly.
-/

namespace BeamScope

inductive Term where
  | atom (name : String)
  /-- An integer of 64 bits. -/
  | integer (value : Int)
  /-- A floating-point number, by its bits. -/
  | float (bits : UInt64)
  | binary (bytes : Bytes)
  /-- The empty list. -/
  | nil
  | list (items : List Term)
  /-- A list that ends in something else than the empty list. -/
  | improperList (items : List Term) (tail : Term)
  | tuple (items : List Term)
  /-- Pairs in the order in which they were written; keys may repeat. -/
  | map (pairs : List (Term × Term))
  /-- A value kept only as the text that shows it. -/
  | other (text : String)
  deriving Repr, Inhabited

namespace Term

def asAtom? : Term → Option String
  | atom name => some name
  | _ => none

def asInteger? : Term → Option Int
  | integer value => some value
  | _ => none

def asList? : Term → Option (List Term)
  | list items => some items
  | nil => some []
  | _ => none

def asTuple? : Term → Option (List Term)
  | tuple items => some items
  | _ => none

def isAtom (name : String) : Term → Bool
  | atom n => n == name
  | _ => false

/-- The character with number `v`; surrogates and numbers past the last character have none. -/
def char? (v : Int) : Option Char :=
  if h : v.toNat.isValidChar then (if 0 ≤ v then some (Char.ofNatAux v.toNat h) else none) else none

/-- The text of a list of character codes. -/
def asString? (t : Term) : Option String := do
  let items ← t.asList?
  let chars ← items.mapM fun item => item.asInteger?.bind char?
  return String.ofList chars

end Term

end BeamScope
