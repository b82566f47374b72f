import BeamScope.Ascending
import BeamScope.Bytes
import BeamScope.Text.Lines
import BeamScope.Text.Utf8

/-!
# Source text

The lines of a source file by their numbers, from a file or laid out anew. Numbers have 32 bits;
lines past the last number are dropped.
-/

namespace BeamScope

/-- Lines by number, ascending. -/
structure SourceText where
  entries : List (Nat × String)
  deriving Repr, DecidableEq

namespace SourceText

def empty : SourceText := ⟨[]⟩

/-- Lines given in any order; of two with one number the later counts. -/
def ofPairs (pairs : List (Nat × String)) : SourceText := ⟨Ascending.ofPairs pairs⟩

def get? (t : SourceText) (line : Nat) : Option String := t.entries.lookup line

/-- Put lines in, in place of those with the same numbers. -/
def extend (t : SourceText) (pairs : List (Nat × String)) : SourceText :=
  ⟨pairs.foldl (fun m p => Ascending.insertKey p.1 p.2 m) t.entries⟩

/-- The lines of a text, numbered from `first` on. -/
def numbered (first : Nat) (text : String) : List (Nat × String) :=
  ((Text.linesOf text).mapIdx fun i line => (first + i, line)).filter fun p => isUInt32 p.1

/-- The lines of a source file; `none` if it is not text. -/
def ofBytes? (file : Bytes) : Option SourceText :=
  (Text.Utf8.decode? file).map fun text => ⟨numbered 1 text⟩

end SourceText

end BeamScope
