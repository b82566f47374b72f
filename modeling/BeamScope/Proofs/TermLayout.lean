import BeamScope.Proofs.TermRoundTrip

/-!
# What stands behind a tag

A term is a tag and fields behind it: bytes, numbers, terms one level down. Which fields a tag
announces, and what term they make, is a `Layout`, and it says nothing of where the fields come
from. Reading a term is its layout with the fields taken from a cursor (`read_succ`). So what two
readers have in common follows from what they have in common at single fields, whatever the tag
(`Fields.Alike.term`).

The parts of an external function are read on the level of the function itself. They are no fields,
but stand beside the layouts.
-/

namespace BeamScope

/-! ### Two readers -/

/-- Two outcomes of one step: both fail, with faults that correspond, or both find the same and go
on in states that correspond. -/
inductive Paired {ε ε' σ σ' α : Type} (S : σ → σ' → Prop) (E : ε → ε' → Prop) :
    Except ε (α × σ) → Except ε' (α × σ') → Prop where
  | error {e : ε} {e' : ε'} (h : E e e') : Paired S E (.error e) (.error e')
  | ok (a : α) {s : σ} {s' : σ'} (h : S s s') : Paired S E (.ok (a, s)) (.ok (a, s'))

theorem Paired.bind {ε ε' σ σ' α β : Type} {S : σ → σ' → Prop} {E : ε → ε' → Prop}
    {x : Except ε (α × σ)} {y : Except ε' (α × σ')} {f : α × σ → Except ε (β × σ)}
    {g : α × σ' → Except ε' (β × σ')} (h : Paired S E x y)
    (hfg : ∀ a s s', S s s' → Paired S E (f (a, s)) (g (a, s'))) :
    Paired S E (x >>= f) (y >>= g) := by
  cases h with
  | error h => exact .error h
  | ok a h => exact hfg a _ _ h

namespace Term

/-! ### Layouts -/

/-- The fields behind a tag, one after another, up to the term that they make or to what is wrong
with them. -/
inductive Layout where
  | done (t : Term)
  /-- The term is bad: there is no such tag, or its fields make none. -/
  | badTerm
  /-- The first field is the length of a name that is no text. -/
  | badName
  | byte (next : UInt8 → Layout)
  | take (n : Nat) (next : Bytes → Layout)
  | word (width : Nat) (next : Nat → Layout)
  /-- A term one level down. -/
  | child (next : Term → Layout)
  | children (n : Nat) (next : List Term → Layout)
  | pairs (n : Nat) (next : List (Term × Term) → Layout)

namespace Layout

def big (n : Nat) : Layout :=
  .byte fun sign => .take n fun digits => .done (bigInteger (sign != 0) digits)

def name (width : Nat) (utf8 : Bool) : Layout :=
  .word width fun n => .take n fun bs =>
    if utf8 then
      match Text.Utf8.decode? bs with
      | some name => .done (.atom name)
      | none => .badName
    else .done (.atom (Bytes.latin1 bs))

def floatText : Layout :=
  .take 31 fun bs =>
    let text := (Text.Utf8.decodeLossy bs).toList
    match Decimal.read? (Text.trim (Text.dropEndWhile (· == '\x00') text)) with
    | some bits => .done (.float bits)
    | none => .badTerm

def tuple (n : Nat) : Layout := .children n fun items => .done (.tuple items)

/-- A list whose elements are bytes. -/
def text (n : Nat) : Layout :=
  .take n fun bs =>
    if bs.isEmpty then .done .nil else .done (.list (bs.map fun b => .integer b.toNat))

def list (n : Nat) : Layout :=
  .children n fun items => .child fun tail =>
    match tail with
    | .nil => .done (.list items)
    | tail => .done (.improperList items tail)

/-- A function of an older kind, whose size counts its own field. -/
def oldFunction (size : Nat) : Layout :=
  if size < 4 then .badTerm else .take (size - 4) fun _ => .done (.other "#Fun")

/-- The layout of each tag but that of an external function. -/
def ofTag : Nat → Layout
  | 70 => .word 8 fun bits => .done (.float (UInt64.ofNat bits))
  | 77 => .word 4 fun n => .byte fun lastBits => .take n fun _ =>
    .done (.other (bitStringText n lastBits.toNat))
  | 97 => .byte fun b => .done (.integer b.toNat)
  | 98 => .take 4 fun bs => .done (.integer (Bytes.toIntBE bs))
  | 99 => floatText
  | 100 => name 2 false
  | 104 => .byte fun n => tuple n.toNat
  | 105 => .word 4 tuple
  | 106 => .done .nil
  | 107 => .word 2 text
  | 108 => .word 4 list
  | 109 => .word 4 fun n => .take n fun bs => .done (.binary bs)
  | 110 => .byte fun n => big n.toNat
  | 111 => .word 4 big
  | 112 => .word 4 oldFunction
  | 115 => name 1 false
  | 116 => .word 4 fun n => .pairs n fun pairs => .done (.map pairs)
  | 118 => name 2 true
  | 119 => name 1 true
  | _ => .badTerm

end Layout

/-! ### Fields -/

/-- Where the fields of a term come from, and what is reported of a bad one. -/
structure Fields (ε σ : Type) where
  badTerm : ε
  badName : ε
  byte : σ → Except ε (UInt8 × σ)
  take : Nat → σ → Except ε (Bytes × σ)
  word : Nat → σ → Except ε (Nat × σ)
  child : σ → Except ε (Term × σ)
  children : Nat → σ → Except ε (List Term × σ)
  pairs : Nat → σ → Except ε (List (Term × Term) × σ)
  /-- A part of an external function. -/
  part : σ → Except ε (Term × σ)

section Fields

variable {ε σ : Type} (f : Fields ε σ)

def Layout.read : Layout → σ → Except ε (Term × σ)
  | .done t, s => .ok (t, s)
  | .badTerm, _ => .error f.badTerm
  | .badName, _ => .error f.badName
  | .byte next, s => do
    let (b, s) ← f.byte s
    (next b).read s
  | .take n next, s => do
    let (bs, s) ← f.take n s
    (next bs).read s
  | .word width next, s => do
    let (n, s) ← f.word width s
    (next n).read s
  | .child next, s => do
    let (t, s) ← f.child s
    (next t).read s
  | .children n next, s => do
    let (ts, s) ← f.children n s
    (next ts).read s
  | .pairs n next, s => do
    let (ps, s) ← f.pairs n s
    (next ps).read s

def Fields.external (s : σ) : Except ε (Term × σ) := do
  let (module, s) ← f.part s
  let (function, s) ← f.part s
  let (arity, s) ← f.part s
  match module, function, arity with
  | .atom m, .atom g, .integer a => .ok (.other s!"fun {m}:{g}/{a}", s)
  | _, _, _ => .error f.badTerm

/-- The term of a tag. -/
def Fields.term (tag : UInt8) (s : σ) : Except ε (Term × σ) :=
  if tag.toNat = 113 then f.external s else (Layout.ofTag tag.toNat).read f s

end Fields

namespace Layout

/-! What is read where a layout goes on by cases. -/

variable {ε σ : Type} (f : Fields ε σ) (s : σ)

theorem read_name (width : Nat) (utf8 : Bool) :
    (name width utf8).read f s = (do
      let (n, s) ← f.word width s
      let (bs, s) ← f.take n s
      if utf8 then
        match Text.Utf8.decode? bs with
        | some name => .ok (.atom name, s)
        | none => .error f.badName
      else .ok (.atom (Bytes.latin1 bs), s)) := by
  apply bind_congr
  intro (n, s)
  apply bind_congr
  intro (bs, s)
  cases utf8 with
  | false => rfl
  | true =>
    simp only [if_true]
    cases Text.Utf8.decode? bs <;> rfl

theorem read_floatText :
    floatText.read f s = (do
      let (bs, s) ← f.take 31 s
      let text := (Text.Utf8.decodeLossy bs).toList
      match Decimal.read? (Text.trim (Text.dropEndWhile (· == '\x00') text)) with
      | some bits => .ok (.float bits, s)
      | none => .error f.badTerm) := by
  rw [floatText, read]
  apply bind_congr
  intro (bs, s)
  dsimp only
  split <;> rfl

theorem read_text (n : Nat) :
    (text n).read f s = (do
      let (bs, s) ← f.take n s
      if bs.isEmpty then .ok (.nil, s) else .ok (.list (bs.map fun b => .integer b.toNat), s)) := by
  apply bind_congr
  intro (bs, s)
  dsimp only
  split <;> rfl

theorem read_list (n : Nat) :
    (list n).read f s = (do
      let (items, s) ← f.children n s
      let (tail, s) ← f.child s
      match tail with
      | .nil => .ok (.list items, s)
      | tail => .ok (.improperList items tail, s)) := by
  apply bind_congr
  intro (items, s)
  apply bind_congr
  intro (tail, s)
  cases tail <;> rfl

theorem read_oldFunction (size : Nat) :
    (oldFunction size).read f s =
      if size < 4 then .error f.badTerm
      else (do
        let (_, s) ← f.take (size - 4) s
        .ok (.other "#Fun", s)) := by
  unfold oldFunction
  split <;> rfl

end Layout

/-! ### Reading is reading fields -/

/-- The fields behind a tag at `offset`, from a cursor at `behind` on. -/
def cursorFields (d : Decoder) (fuel levels : Nat) (tag : UInt8) (offset behind : Nat) :
    Fields Fault Cursor where
  badTerm := .badTerm tag offset
  badName := .badUtf8 behind
  byte := Cursor.byte
  take := Cursor.take
  word := Cursor.word
  child := readBelow d fuel levels
  children := readItems d fuel levels
  pairs n c := do
    checkCount d (n * 2) c
    Cursor.many (readPair d fuel levels) n c
  part := read d fuel levels

theorem read_succ (d : Decoder) (fuel levels : Nat) (c : Cursor) :
    read d (fuel + 1) levels c = (do
      let (tag, after) ← c.byte
      (cursorFields d fuel levels tag c.pos after.pos).term tag after) := by
  rw [read]
  apply bind_congr
  intro (tag, after)
  unfold Fields.term
  dsimp only
  generalize tag.toNat = k
  -- One case for each tag, in their order; the last one is for all other bytes.
  split
  · rfl
  · rfl
  · rfl
  · rfl
  · symm
    apply (Layout.read_floatText ..).trans
    apply bind_congr
    intro (bs, c)
    dsimp only
    cases Decimal.read? _ <;> rfl
  · symm
    exact Layout.read_name ..
  · cases levels <;> rfl
  · cases levels <;> rfl
  · rfl
  · symm
    exact bind_congr fun (n, c) => Layout.read_text ..
  · symm
    cases levels <;> exact bind_congr fun (n, c) => Layout.read_list ..
  · rfl
  · rfl
  · rfl
  · symm
    exact bind_congr fun (size, c) => Layout.read_oldFunction ..
  · rfl
  · symm
    exact Layout.read_name ..
  · symm
    cases levels <;> exact bind_congr fun (n, c) => bind_assoc ..
  · symm
    exact Layout.read_name ..
  · symm
    exact Layout.read_name ..
  · have hexternal : k ≠ 113 := by assumption
    rw [if_neg hexternal]
    simp only [Layout.ofTag, *]
    rfl

/-! ### Two sources of fields -/

section Alike

variable {ε ε' σ σ' : Type} {S : σ → σ' → Prop} {E : ε → ε' → Prop}

/-- The two sources give the same at every single field. -/
structure Fields.Alike (S : σ → σ' → Prop) (E : ε → ε' → Prop) (f : Fields ε σ)
    (g : Fields ε' σ') : Prop where
  badTerm : E f.badTerm g.badTerm
  badName : E f.badName g.badName
  byte {s s'} (h : S s s') : Paired S E (f.byte s) (g.byte s')
  take (n : Nat) {s s'} (h : S s s') : Paired S E (f.take n s) (g.take n s')
  word (width : Nat) {s s'} (h : S s s') : Paired S E (f.word width s) (g.word width s')
  child {s s'} (h : S s s') : Paired S E (f.child s) (g.child s')
  children (n : Nat) {s s'} (h : S s s') : Paired S E (f.children n s) (g.children n s')
  pairs (n : Nat) {s s'} (h : S s s') : Paired S E (f.pairs n s) (g.pairs n s')

variable {f : Fields ε σ} {g : Fields ε' σ'}

/-- What holds at every field holds for every layout. -/
theorem Fields.Alike.read (h : f.Alike S E g) (layout : Layout) {s : σ} {s' : σ'} (hs : S s s') :
    Paired S E (layout.read f s) (layout.read g s') := by
  induction layout generalizing s s' with
  | done t => exact .ok t hs
  | badTerm => exact .error h.badTerm
  | badName => exact .error h.badName
  | byte next ih => exact (h.byte hs).bind fun b _ _ => ih b
  | take n next ih => exact (h.take n hs).bind fun bs _ _ => ih bs
  | word width next ih => exact (h.word width hs).bind fun n _ _ => ih n
  | child next ih => exact (h.child hs).bind fun t _ _ => ih t
  | children n next ih => exact (h.children n hs).bind fun ts _ _ => ih ts
  | pairs n next ih => exact (h.pairs n hs).bind fun ps _ _ => ih ps

theorem Fields.Alike.external (h : f.Alike S E g)
    (hpart : ∀ s s', S s s' → Paired S E (f.part s) (g.part s')) {s : σ} {s' : σ'}
    (hs : S s s') : Paired S E (f.external s) (g.external s') := by
  unfold Fields.external
  refine (hpart s s' hs).bind fun module s s' hs => ?_
  refine (hpart s s' hs).bind fun function s s' hs => ?_
  refine (hpart s s' hs).bind fun arity s s' hs => ?_
  dsimp only
  split
  · exact .ok _ hs
  · exact .error h.badTerm

/-- Two sources give the same term for a tag if they give the same at every field, and the same
parts if the tag is that of an external function. -/
theorem Fields.Alike.term (h : f.Alike S E g) {tag : UInt8}
    (hpart : tag.toNat = 113 → ∀ s s', S s s' → Paired S E (f.part s) (g.part s')) {s : σ}
    {s' : σ'} (hs : S s s') : Paired S E (f.term tag s) (g.term tag s') := by
  unfold Fields.term
  split
  next htag => exact h.external (hpart htag) hs
  next => exact h.read _ hs

end Alike

end Term

end BeamScope
