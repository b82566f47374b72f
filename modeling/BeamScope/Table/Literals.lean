import BeamScope.Note
import BeamScope.Term.External

/-!
# Literal tables

The constants of a module, numbered from 0, each a serialized term behind its size. The table as a
whole may be compressed. A constant that cannot be decoded leaves a hole, so that the numbers of
the others stay right.
-/

namespace BeamScope

/-- The note made on a term with bytes behind it. -/
def Term.Decoded.notes (d : Term.Decoded) : List Note :=
  if d.trailing = 0 then [] else [.debug s!"{d.trailing} bytes after term"]

structure LiteralTable where
  terms : List (Option Term)
  deriving Repr

namespace LiteralTable

def empty : LiteralTable := ⟨[]⟩

/-- The constant with a number, unless it is a hole. -/
def get? (t : LiteralTable) (index : Nat) : Option Term := t.terms[index]?.join

/-- The next entry: a size and as many bytes. -/
def readEntry (d : Term.Decoder) (c : Cursor) :
    Except Fault (Except Fault Term.Decoded × Cursor) := do
  let (len, body) ← c.word 4
  if Bytes.holds len body.rest then return (Term.decode d (body.rest.take len), body.skip len)
  else .error (.truncated c.pos)

/-- The table inside a chunk: stored as it is when the size before it is 0, else compressed. -/
def unpack (d : Term.Decoder) (chunk : Bytes) : Except Fault Bytes := do
  let (size, c) ← (Cursor.ofOffset chunk 0).word 4
  if size = 0 then return c.rest else d.inflate c.rest size

def entries (d : Term.Decoder) (table : Bytes) : Run (Except Fault Term.Decoded) :=
  match (Cursor.ofOffset table 0).word 4 with
  | .error e => ⟨[], some e⟩
  | .ok (count, c) => Run.many (readEntry d) count c

/-- What is noted on the entry with a number. -/
def entryNotes (entry : Except Fault Term.Decoded) (index : Nat) : List Note :=
  match entry with
  | .ok decoded => decoded.notes
  | .error e => [.warn (s!"literal {index} undecodable: " ++ e.message)]

/-- The table of entries, with a hole for each that could not be decoded. -/
def ofEntries (items : List (Except Fault Term.Decoded)) : LiteralTable :=
  ⟨items.map fun entry => entry.toOption.map Term.Decoded.term⟩

def parse (d : Term.Decoder) (chunk : Bytes) : Noted (Except Fault LiteralTable) :=
  match unpack d chunk with
  | .error e => ⟨.error e, []⟩
  | .ok table =>
    let run := entries d table
    ⟨run.toExcept.map ofEntries, (run.items.mapIdx fun i entry => entryNotes entry i).flatten⟩

/-- A literal chunk, or the empty table when it is missing or malformed. -/
def ofChunk (d : Term.Decoder) : Option Bytes → Noted LiteralTable
  | none => pure empty
  | some chunk => do
    match ← parse d chunk with
    | .ok table => return table
    | .error e =>
      Noted.say [.warn ("ignoring malformed LitT chunk: " ++ e.message)]
      return empty

theorem value_ofChunk_some (d : Term.Decoder) (chunk : Bytes) :
    (ofChunk d (some chunk)).value = (parse d chunk).value.toOption.getD empty := by
  simp only [ofChunk, Noted.value_bind]
  cases (parse d chunk).value <;> rfl

end LiteralTable

end BeamScope
