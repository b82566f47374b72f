import BeamScope.Operand
import BeamScope.Table.Atoms

/-!
# Tables of functions

Imports, exports and local functions: tables of three numbers a row behind a count. Names are atom
numbers, resolved through the atom table.
-/

namespace BeamScope

/-- Three numbers of 32 bits. -/
def Cursor.triple (c : Cursor) : Except Fault ((Nat × Nat × Nat) × Cursor) := do
  let (a, c) ← c.word 4
  let (b, c) ← c.word 4
  let (d, c) ← c.word 4
  return ((a, b, d), c)

/-- A count and as many rows of three numbers. -/
def readTriples (chunk : Bytes) : Except Fault (List (Nat × Nat × Nat)) := do
  let (count, c) ← (Cursor.ofOffset chunk 0).word 4
  let (rows, _) ← Cursor.many Cursor.triple count c
  return rows

/-- A function of another module, by atom numbers. -/
structure Import where
  module : Nat
  function : Nat
  arity : Nat
  deriving Repr, DecidableEq

/-- The imports of a module, numbered from 0. -/
structure ImportTable where
  imports : List Import
  deriving Repr, DecidableEq

namespace ImportTable

def empty : ImportTable := ⟨[]⟩

def parse (chunk : Bytes) : Except Fault ImportTable := do
  let rows ← readTriples chunk
  return ⟨rows.map fun (m, f, a) => ⟨m, f, a⟩⟩

def resolveImport (i : Import) (atoms : AtomTable) : Option ExtFunc := do
  let m ← atoms.get? i.module
  let f ← atoms.get? i.function
  return ⟨m, f, i.arity⟩

/-- The import with a number, with its names. -/
def resolve (t : ImportTable) (index : Nat) (atoms : AtomTable) : Option ExtFunc :=
  t.imports[index]?.bind fun i => resolveImport i atoms

end ImportTable

/-- A function of the module: its atom number, arity and label. -/
structure FunctionEntry where
  function : Nat
  arity : Nat
  label : Nat
  deriving Repr, DecidableEq

/-- The exported or the local functions of a module. -/
structure FunctionTable where
  entries : List FunctionEntry
  deriving Repr, DecidableEq

namespace FunctionTable

def empty : FunctionTable := ⟨[]⟩

def parse (chunk : Bytes) : Except Fault FunctionTable := do
  let rows ← readTriples chunk
  return ⟨rows.map fun (f, a, l) => ⟨f, a, l⟩⟩

/-- Name and arity of each function whose atom is in the table. -/
def names (t : FunctionTable) (atoms : AtomTable) : List (String × Nat) :=
  t.entries.filterMap fun e => (atoms.get? e.function).map fun name => (name, e.arity)

end FunctionTable

end BeamScope
