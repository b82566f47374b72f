import BeamScope.AbstractCode.Forms
import BeamScope.Container
import BeamScope.Source.Text

/-!
# Laying out fragments

Fragments of text put back on their lines, in the order of those. A fragment whose line is taken is
pushed down to the first free line, so nothing is overwritten below the greatest line number. There
fragments meet, and the last one wins.
-/

namespace BeamScope.SourceText

open AbstractCode

/-- The sum of two numbers, at most the greatest number of 32 bits. -/
def saturatingAdd (a b : Nat) : Nat := min (a + b) (2 ^ 32 - 1)

def place (free : Nat) (t : SourceText) : List Fragment → Noted SourceText
  | [] => pure t
  | f :: fs =>
    let start := max f.line free
    let lines := numbered start f.text
    let notes :=
      if start = f.line then []
      else [.debug s!"form at line {f.line} pushed down to {start}"]
    let rest := place (saturatingAdd start (max lines.length 1)) (t.extend lines) fs
    ⟨rest.value, notes ++ rest.notes⟩

def layout (fs : List Fragment) : Noted SourceText :=
  place 1 empty (fs.mergeSort fun a b => a.line ≤ b.line)

/-- The text rebuilt from the debug information of a module; `none` if there is none. -/
def ofDebugInfo (f : Container) : Noted (Option SourceText) := do
  match ← f.abstractForms with
  | .error e =>
    Noted.say [.warn ("unreadable debug info: " ++ e.message)]
    return none
  | .ok none => return none
  | .ok (some forms) =>
    let text ← layout (fragments forms)
    return if text.entries.isEmpty then none else some text

end BeamScope.SourceText
