import BeamScope.Compact
import BeamScope.Note

/-!
# Line tables

Line markers in the code carry an index into this table, which gives the line of the source. Each
entry is a compact number whose low 24 bits are the line. A table is read completely or not at all;
without one, an index stands for the line of the same number.
-/

namespace BeamScope

/-- The five numbers in front of a line table. -/
structure LineHeader where
  version : Nat
  flags : Nat
  instructionCount : Nat
  lineCount : Nat
  fileNameCount : Nat
  deriving Repr, DecidableEq

namespace LineHeader

/-- Bytes of a header. -/
def size : Nat := 20

def parse (chunk : Bytes) : Except Fault LineHeader :=
  if Bytes.holds size chunk then
    let field (i : Nat) := Bytes.toNatBE ((chunk.drop (4 * i)).take 4)
    .ok ⟨field 0, field 1, field 2, field 3, field 4⟩
  else .error (.truncated chunk.length)

end LineHeader

/-- The lines of a module, numbered from 0. -/
structure LineTable where
  lines : List Nat
  deriving Repr, DecidableEq

namespace LineTable

def empty : LineTable := ⟨[]⟩

/-- The low 24 bits of an entry. -/
def lineOf (value : Int) : Nat := (value % 2 ^ 24).toNat

def readEntry (c : Cursor) : Except Fault ((Nat × Compact) × Cursor) := do
  let (item, after) ← Compact.next c
  return ((c.pos, item), after)

/-- As many entries as the header says. -/
def entries (header : LineHeader) (chunk : Bytes) : Run (Nat × Compact) :=
  Run.many readEntry header.lineCount (Cursor.ofOffset chunk LineHeader.size)

/-- What is noted on the entries: the first that switches to another source file. -/
def entryNotes (items : List (Nat × Compact)) : List Note :=
  match items.find? fun p => p.2.tag == .atom with
  | some (pos, _) =>
    [.warn ("line table switches source file at offset " ++ Text.hex pos ++
      "; later lines may be shifted")]
  | none => []

def parse (chunk : Bytes) : Noted (Except Fault LineTable) :=
  match LineHeader.parse chunk with
  | .error e => ⟨.error e, []⟩
  | .ok header =>
    let run := entries header chunk
    ⟨run.toExcept.map fun items => ⟨items.map fun p => lineOf p.2.value⟩, entryNotes run.items⟩

/-- A line chunk, or the empty table when it is missing or malformed. -/
def ofChunk : Option Bytes → Noted LineTable
  | none => ⟨empty, [.debug "no Line chunk; falling back to raw line indices"]⟩
  | some chunk => do
    match ← parse chunk with
    | .ok table => return table
    | .error e =>
      Noted.say [.warn ("ignoring malformed Line chunk: " ++ e.message)]
      return empty

/-- The line of an index, if the table has one. -/
def get? (t : LineTable) (index : Nat) : Option Nat := t.lines[index]?

/-- The line of an index, or the index itself. -/
def resolve (t : LineTable) (index : Nat) : Nat := (t.get? index).getD index

def toPairs (t : LineTable) : List (Nat × Nat) := t.lines.mapIdx fun i line => (i, line)

@[simp] theorem resolve_empty (index : Nat) : empty.resolve index = index := rfl

theorem value_ofChunk_some (chunk : Bytes) :
    (ofChunk (some chunk)).value = (parse chunk).value.toOption.getD empty := by
  simp only [ofChunk, Noted.value_bind]
  cases (parse chunk).value <;> rfl

end LineTable

end BeamScope
