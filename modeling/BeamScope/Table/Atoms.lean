import BeamScope.Compact
import BeamScope.Text.Utf8

/-!
# Atom tables

The names that a module uses, numbered from 1; the first is the module's own. Names are preceded
by their length: one byte, or a compact number when the count of the table is negative.
-/

namespace BeamScope

structure AtomTable where
  names : List String
  deriving Repr, DecidableEq

namespace AtomTable

def empty : AtomTable := ⟨[]⟩

/-- The atom with a number, the first being 1. -/
def get? (t : AtomTable) (index : Nat) : Option String :=
  match index with
  | 0 => none
  | i + 1 => t.names[i]?

def moduleName? (t : AtomTable) : Option String := t.get? 1

def readLength (compact : Bool) (c : Cursor) : Except Fault (Nat × Cursor) :=
  if compact then do
    let (item, c) ← Compact.next c
    if item.value < 0 then .error (.overflow c.pos) else return (item.value.toNat, c)
  else do
    let (b, c) ← c.byte
    return (b.toNat, c)

def readName (compact latin1 : Bool) (c : Cursor) : Except Fault (String × Cursor) := do
  let (len, c) ← readLength compact c
  let (bs, after) ← c.take len
  if latin1 then return (Bytes.latin1 bs, after)
  else
    match Text.Utf8.decode? bs with
    | some name => return (name, after)
    | none => .error (.badUtf8 c.pos)

/-- An atom chunk, in Latin-1 or UTF-8. -/
def parse (latin1 : Bool) (chunk : Bytes) : Except Fault AtomTable := do
  let (bs, c) ← (Cursor.ofOffset chunk 0).take 4
  let count := Bytes.toIntBE bs
  let (names, _) ← Cursor.many (readName (count < 0) latin1) count.natAbs c
  return ⟨names⟩

end AtomTable

end BeamScope
