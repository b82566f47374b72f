/-!
# Notes

Remarks that a reader or an analysis makes along the way. They are returned as data beside the
result, in the order in which they were made, and never influence it.
-/

namespace BeamScope

inductive Level where
  | warn
  | debug
  deriving Repr, DecidableEq

structure Note where
  level : Level
  text : String
  deriving Repr, DecidableEq

def Note.warn (text : String) : Note := ⟨.warn, text⟩

/-- A remark for someone who is looking for the reason of a result. -/
def Note.debug (text : String) : Note := ⟨.debug, text⟩

/-- A value and the notes made while it was computed. -/
structure Noted (α : Type) where
  value : α
  notes : List Note

namespace Noted

/-- Run `f` on the value; its notes come after those already made. -/
def andThen (x : Noted α) (f : α → Noted β) : Noted β :=
  ⟨(f x.value).value, x.notes ++ (f x.value).notes⟩

instance : Monad Noted where
  pure a := ⟨a, []⟩
  bind := andThen

def say (notes : List Note) : Noted Unit := ⟨(), notes⟩

/-- The notes made for each element of a list, and the values in order. -/
def traverse (f : α → Noted β) : List α → Noted (List β)
  | [] => ⟨[], []⟩
  | a :: as => ⟨(f a).value :: (traverse f as).value, (f a).notes ++ (traverse f as).notes⟩

@[simp] theorem value_pure (a : α) : (pure a : Noted α).value = a := rfl

@[simp] theorem value_bind (x : Noted α) (f : α → Noted β) :
    (x >>= f).value = (f x.value).value := rfl

@[simp] theorem notes_bind (x : Noted α) (f : α → Noted β) :
    (x >>= f).notes = x.notes ++ (f x.value).notes := rfl

/-- Values are computed element by element, whatever is noted. -/
theorem value_traverse (f : α → Noted β) (as : List α) :
    (traverse f as).value = as.map fun a => (f a).value := by
  induction as with
  | nil => rfl
  | cons a as ih => simp [traverse, ih]

end Noted

end BeamScope
