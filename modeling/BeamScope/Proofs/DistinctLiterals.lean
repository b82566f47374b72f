import BeamScope.Proofs.Drawing
import BeamScope.Proofs.Numerals
import BeamScope.Proofs.Utf8

/-!
# Different terms have different texts

A text tells which term it is of, and where it ends, whatever may stand behind it. A quoted text
ends at the first quote that is not escaped, a name or a number where no letter or digit goes on with
it, and a row of items where no comma follows. Left out are terms that may be shown like others:
lists without elements, floating-point numbers, and values kept only as a text.
-/

namespace BeamScope

namespace Term

mutual

/-- Whether a term has at no depth a floating-point number, a value kept only as a text, or a list
of elements without any. The empty list proper is `nil`. -/
def legible : Term → Bool
  | .atom _ => true
  | .integer _ => true
  | .float _ => false
  | .binary _ => true
  | .nil => true
  | .list items => !items.isEmpty && legibleAll items
  | .improperList items tail => !items.isEmpty && legibleAll items && legible tail
  | .tuple items => legibleAll items
  | .map pairs => legiblePairs pairs
  | .other _ => false

def legibleAll : List Term → Bool
  | [] => true
  | t :: ts => legible t && legibleAll ts

def legiblePairs : List (Term × Term) → Bool
  | [] => true
  | (k, v) :: rest => legible k && legible v && legiblePairs rest

end

end Term

namespace Format

open Text

variable {r s : List Char}

/-- Nothing stands here that could go on a name or a number. -/
def Follows (rest : List Char) : Prop := ∀ c ∈ rest.head?, isNameChar c = false

/-- The text of `a`, with whatever may follow, is that of no other value that `ok` allows. -/
def Told {α : Type} (text : α → List Char) (ok : α → Prop) (a : α) : Prop :=
  ∀ b r s, ok b → Follows r → Follows s → text a ++ r = text b ++ s → a = b ∧ r = s

/-! ### Names and numbers -/

theorem append_inj_of_stop {p : Char → Bool} {xs ys : List Char} (hxs : ∀ c ∈ xs, p c = true)
    (hys : ∀ c ∈ ys, p c = true) (hr : ∀ c ∈ r.head?, p c = false)
    (hs : ∀ c ∈ s.head?, p c = false) (h : xs ++ r = ys ++ s) : xs = ys ∧ r = s := by
  induction xs generalizing ys with
  | nil =>
    cases ys with
    | nil => exact ⟨rfl, h⟩
    | cons d ys =>
      have hd := hr d (by rw [← List.nil_append r, h]; rfl)
      rw [hys d (List.mem_cons_self ..)] at hd
      cases hd
  | cons c xs ih =>
    cases ys with
    | nil =>
      have hc := hs c (by rw [← List.nil_append s, ← h]; rfl)
      rw [hxs c (List.mem_cons_self ..)] at hc
      cases hc
    | cons d ys =>
      obtain ⟨rfl, hmore⟩ := List.cons.inj h
      rw [List.forall_mem_cons] at hxs hys
      obtain ⟨rfl, hrest⟩ := ih hxs.2 hys.2 hmore
      exact ⟨rfl, hrest⟩

theorem isDigit_eq_false {c : Char} (h : isNameChar c = false) : c.isDigit = false := by
  simp only [isNameChar, Char.isAlphanum, Bool.or_eq_false_iff] at h
  exact h.1.1.2

theorem toDigits_append_inj {m n : Nat} (hr : Follows r) (hs : Follows s)
    (h : Nat.toDigits 10 m ++ r = Nat.toDigits 10 n ++ s) : m = n ∧ r = s := by
  have hdigits (k : Nat) : ∀ c ∈ Nat.toDigits 10 k, c.isDigit = true :=
    fun c hc => Nat.isDigit_of_mem_toDigits (by decide) (by decide) hc
  obtain ⟨htext, hrest⟩ := append_inj_of_stop (hdigits m) (hdigits n)
    (fun c hc => isDigit_eq_false (hr c hc)) (fun c hc => isDigit_eq_false (hs c hc)) h
  have hread := natOfDigits?_toDigits m
  rw [htext, natOfDigits?_toDigits] at hread
  exact ⟨(Option.some.inj hread).symm, hrest⟩

theorem toDigits_eq_cons (n : Nat) : ∃ c cs, Nat.toDigits 10 n = c :: cs ∧ c.isDigit = true := by
  cases hdigits : Nat.toDigits 10 n with
  | nil => exact (Nat.toDigits_ne_nil hdigits).elim
  | cons c cs =>
    have hc : c ∈ Nat.toDigits 10 n := hdigits ▸ List.mem_cons_self ..
    exact ⟨c, cs, rfl, Nat.isDigit_of_mem_toDigits (by decide) (by decide) hc⟩

theorem toDigits_append_ne {c : Char} (hc : c.isDigit = false) (n : Nat)
    (h : Nat.toDigits 10 n ++ r = c :: s) : False := by
  obtain ⟨d, ds, hdigits, hd⟩ := toDigits_eq_cons n
  rw [hdigits] at h
  obtain ⟨rfl, -⟩ := List.cons.inj h
  rw [hc] at hd
  cases hd

theorem toString_append_inj {v w : Int} (hr : Follows r) (hs : Follows s)
    (h : (toString v).toList ++ r = (toString w).toList ++ s) : v = w ∧ r = s := by
  rw [toList_toString, toList_toString] at h
  by_cases hv : v < 0
  · by_cases hw : w < 0
    · rw [if_pos hv, if_pos hw] at h
      obtain ⟨habs, hrest⟩ := toDigits_append_inj hr hs (List.cons.inj h).2
      exact ⟨by omega, hrest⟩
    · rw [if_pos hv, if_neg hw] at h
      exact (toDigits_append_ne (by decide) _ h.symm).elim
  · by_cases hw : w < 0
    · rw [if_neg hv, if_pos hw] at h
      exact (toDigits_append_ne (by decide) _ h).elim
    · rw [if_neg hv, if_neg hw] at h
      obtain ⟨habs, hrest⟩ := toDigits_append_inj hr hs h
      exact ⟨by omega, hrest⟩

/-! ### Quotes -/

theorem escape_append_inj {a b : List Char} (h : escape a ++ '"' :: r = escape b ++ '"' :: s) :
    a = b ∧ r = s := by
  have hread := congrArg CallGraph.unquote h
  rw [CallGraph.unquote_escape, CallGraph.unquote_escape] at hread
  cases hread
  exact ⟨rfl, rfl⟩

theorem isNameChar_of_isPlainName {name : List Char} (h : isPlainName name = true) :
    ∀ c ∈ name, isNameChar c = true := by
  cases name with
  | nil => nofun
  | cons c cs =>
    rw [isPlainName, Bool.and_eq_true, List.all_eq_true] at h
    intro d hd
    rcases List.mem_cons.mp hd with rfl | hd
    · have halpha : d.isAlpha = true := Bool.or_eq_true_iff.mpr (.inr h.1)
      simp [isNameChar, Char.isAlphanum, halpha]
    · exact h.2 d hd

theorem plain_append_ne {name : List Char} (hplain : isPlainName name = true)
    (h : name ++ r = '"' :: s) : False := by
  cases name with
  | nil => cases hplain
  | cons c cs =>
    obtain ⟨rfl, -⟩ := List.cons.inj h
    cases hplain

theorem atomChars_append_inj {a b : List Char} (hr : Follows r) (hs : Follows s)
    (h : atomChars a ++ r = atomChars b ++ s) : a = b ∧ r = s := by
  have hquoted (name rest : List Char) : [':', '"'] ++ escape name ++ ['"'] ++ rest =
      ':' :: '"' :: (escape name ++ '"' :: rest) := by simp
  unfold atomChars at h
  by_cases ha : isPlainName a = true
  · by_cases hb : isPlainName b = true
    · rw [if_pos ha, if_pos hb] at h
      exact append_inj_of_stop (isNameChar_of_isPlainName ha) (isNameChar_of_isPlainName hb) hr hs
        (List.cons.inj h).2
    · rw [if_pos ha, if_neg hb, hquoted] at h
      exact (plain_append_ne ha (List.cons.inj h).2).elim
  · by_cases hb : isPlainName b = true
    · rw [if_neg ha, if_pos hb, hquoted] at h
      exact (plain_append_ne hb (List.cons.inj h).2.symm).elim
    · rw [if_neg ha, if_neg hb, hquoted, hquoted] at h
      exact escape_append_inj (List.cons.inj (List.cons.inj h).2).2

/-! ### Items with commas -/

/-- The characters that end a row of items. -/
def closers : List Char := [']', '\x7d', ' ', '>']

/-- What stands here ends a row of items. -/
def Closes (rest : List Char) : Prop := ∀ c ∈ rest.head?, c ∈ closers

/-- A text that cannot be taken for the end of a row. -/
def Opens (text : List Char) : Prop := ∃ c more, text = c :: more ∧ c ∉ closers

theorem forall_closers {p : Char → Prop} (h : p ']' ∧ p '\x7d' ∧ p ' ' ∧ p '>') :
    ∀ c ∈ closers, p c := by
  simpa [closers] using h

theorem follows_cons {c : Char} (h : isNameChar c = false) : Follows (c :: r) := by
  intro d hd
  cases hd
  exact h

theorem closes_cons {c : Char} (h : c ∈ closers) : Closes (c :: r) := by
  intro d hd
  cases hd
  exact h

theorem Closes.follows (h : Closes r) : Follows r := by
  have hall : ∀ c ∈ closers, isNameChar c = false := forall_closers (by decide)
  exact fun c hc => hall c (h c hc)

theorem Opens.append_ne {text : List Char} (ho : Opens text) (hs : Closes s)
    (h : text ++ r = s) : False := by
  obtain ⟨c, more, rfl, hc⟩ := ho
  subst h
  exact hc (hs c rfl)

section Rows

variable {α : Type} {text : α → List Char} {ok : α → Prop} {gap : List Char} {as bs : List α}

/-- Items of which each has a comma before it. -/
def trailing (gap : List Char) (text : α → List Char) (as : List α) : List Char :=
  as.flatMap fun a => ',' :: (gap ++ text a)

theorem follows_trailing (hr : Closes r) : Follows (trailing gap text as ++ r) := by
  cases as with
  | nil => exact hr.follows
  | cons a as => exact follows_cons (by decide)

theorem trailing_cons_append_ne {a : α} (hs : Closes s)
    (h : trailing gap text (a :: as) ++ r = s) : False :=
  Opens.append_ne ⟨',', _, rfl, by decide⟩ hs h

theorem trailing_append_inj (has : ∀ a ∈ as, Told text ok a) (hbs : ∀ b ∈ bs, ok b)
    (hr : Closes r) (hs : Closes s)
    (h : trailing gap text as ++ r = trailing gap text bs ++ s) : as = bs ∧ r = s := by
  induction as generalizing bs with
  | nil =>
    cases bs with
    | nil => exact ⟨rfl, h⟩
    | cons b bs => exact (trailing_cons_append_ne hr h.symm).elim
  | cons a as ih =>
    cases bs with
    | nil => exact (trailing_cons_append_ne hs h).elim
    | cons b bs =>
      rw [List.forall_mem_cons] at has hbs
      have hitem : text a ++ (trailing gap text as ++ r) =
          text b ++ (trailing gap text bs ++ s) := by
        simpa [trailing] using h
      obtain ⟨rfl, hmore⟩ := has.1 b _ _ hbs.1 (follows_trailing hr) (follows_trailing hs) hitem
      obtain ⟨rfl, hend⟩ := ih has.2 hbs.2 hmore
      exact ⟨rfl, hend⟩

theorem join_map_cons (a : α) (as : List α) :
    join (',' :: gap) ((a :: as).map text) ++ r = text a ++ (trailing gap text as ++ r) := by
  rw [List.map_cons, join_cons, List.append_assoc, List.flatMap_map]
  rfl

/-- A row tells its items and where it ends. An item begins like no end of a row, so that the row
without items is told from the others. -/
theorem join_append_inj (hopen : ∀ a, ok a → Opens (text a)) (has : ∀ a ∈ as, ok a)
    (htold : ∀ a ∈ as, Told text ok a) (hbs : ∀ b ∈ bs, ok b) (hr : Closes r) (hs : Closes s)
    (h : join (',' :: gap) (as.map text) ++ r = join (',' :: gap) (bs.map text) ++ s) :
    as = bs ∧ r = s := by
  cases as with
  | nil =>
    cases bs with
    | nil => exact ⟨rfl, h⟩
    | cons b bs =>
      rw [join_map_cons] at h
      exact ((hopen b (hbs b (List.mem_cons_self ..))).append_ne hr h.symm).elim
  | cons a as =>
    cases bs with
    | nil =>
      rw [join_map_cons] at h
      exact ((hopen a (has a (List.mem_cons_self ..))).append_ne hs h).elim
    | cons b bs =>
      rw [List.forall_mem_cons] at htold hbs
      rw [join_map_cons, join_map_cons] at h
      obtain ⟨rfl, hmore⟩ := htold.1 b _ _ hbs.1 (follows_trailing hr) (follows_trailing hs) h
      obtain ⟨rfl, hend⟩ := trailing_append_inj htold.2 hbs.2 hr hs hmore
      exact ⟨rfl, hend⟩

end Rows

/-! ### Binaries -/

theorem opens_toDigits (n : Nat) : Opens (Nat.toDigits 10 n) := by
  obtain ⟨c, cs, hdigits, hc⟩ := toDigits_eq_cons n
  have hnot : ∀ d ∈ closers, d.isDigit = false := forall_closers (by decide)
  refine ⟨c, cs, hdigits, fun hmem => ?_⟩
  rw [hnot c hmem] at hc
  cases hc

theorem told_byte (b : UInt8) : Told (fun b => Nat.toDigits 10 b.toNat) (fun _ => True) b := by
  intro b' r s _ hr hs h
  obtain ⟨hval, hrest⟩ := toDigits_append_inj hr hs h
  exact ⟨UInt8.toNat_inj.mp hval, hrest⟩

theorem byteNumbers_append_inj {as bs : Bytes} (hr : Closes r) (hs : Closes s)
    (h : byteNumbers as ++ r = byteNumbers bs ++ s) : as = bs ∧ r = s :=
  join_append_inj (fun b _ => opens_toDigits b.toNat) (fun _ _ => trivial)
    (fun b _ => told_byte b) (fun _ _ => trivial) hr hs h

theorem byteNumbers_append_ne {bs : Bytes} (h : byteNumbers bs ++ '>' :: r = '"' :: s) : False := by
  cases bs with
  | nil =>
    obtain ⟨hc, -⟩ := List.cons.inj h
    exact absurd hc (by decide)
  | cons b bs =>
    rw [byteNumbers, join_map_cons] at h
    exact toDigits_append_ne (by decide) b.toNat h

theorem binaryChars_cases (bs : Bytes) :
    (∃ s, Utf8.encode s = bs ∧
      binaryChars bs = '<' :: '<' :: '"' :: (escape s.toList ++ ['"', '>', '>'])) ∨
    binaryChars bs = '<' :: '<' :: (byteNumbers bs ++ ['>', '>']) := by
  unfold binaryChars
  cases hdecode : Utf8.decode? bs with
  | none => exact Or.inr rfl
  | some s =>
    by_cases hcontrol : s.toList.any isControl = true
    · right
      simp [hcontrol]
    · left
      exact ⟨s, Utf8.encode_of_decode? hdecode, by simp [hcontrol]⟩

theorem binaryChars_append_inj {as bs : Bytes} (h : binaryChars as ++ r = binaryChars bs ++ s) :
    as = bs ∧ r = s := by
  rcases binaryChars_cases as with ⟨a, rfl, ha⟩ | ha <;>
    rcases binaryChars_cases bs with ⟨b, rfl, hb⟩ | hb <;>
    simp only [ha, hb, List.cons_append, List.append_assoc, List.nil_append, List.cons.injEq,
      true_and] at h
  · obtain ⟨htext, hrest⟩ := escape_append_inj h
    simp only [List.cons.injEq, true_and] at hrest
    exact ⟨by rw [String.toList_inj.mp htext], hrest⟩
  · exact (byteNumbers_append_ne h.symm).elim
  · exact (byteNumbers_append_ne h).elim
  · obtain ⟨hbytes, hrest⟩ := byteNumbers_append_inj (closes_cons (by decide))
      (closes_cons (by decide)) h
    simp only [List.cons.injEq, true_and] at hrest
    exact ⟨hbytes, hrest⟩

/-! ### How a text begins -/

/-- The ways in which the text of a term begins. -/
inductive Kind where
  | atom
  | number
  | binary
  | list
  | tuple
  | map
  | other
  deriving DecidableEq

def Kind.ofChar (c : Char) : Kind :=
  if c = ':' then .atom
  else if c = '<' then .binary
  else if c = '[' then .list
  else if c = '\x7b' then .tuple
  else if c = '#' then .map
  else if c = '-' || c.isDigit then .number
  else .other

def kind : Term → Kind
  | .atom _ => .atom
  | .integer _ => .number
  | .float _ => .number
  | .binary _ => .binary
  | .nil => .list
  | .list _ => .list
  | .improperList _ _ => .list
  | .tuple _ => .tuple
  | .map _ => .map
  | .other _ => .other

theorem kind_ofChar_of_isDigit {c : Char} (h : c.isDigit = true) : Kind.ofChar c = .number := by
  have hne (d : Char) (hd : d.isDigit = false) : c ≠ d := by
    rintro rfl
    rw [hd] at h
    cases h
  simp [Kind.ofChar, h, hne]

theorem kind_ofChar_of_closer : ∀ c ∈ closers, Kind.ofChar c = .other :=
  forall_closers (by decide)

theorem termChars_eq_cons {t : Term} (h : t.legible = true) :
    ∃ c more, termChars t = c :: more ∧ Kind.ofChar c = kind t := by
  cases t with
  | atom name =>
    rw [termChars, atomChars]
    split
    · exact ⟨':', _, rfl, rfl⟩
    · exact ⟨':', _, rfl, rfl⟩
  | integer v =>
    rw [termChars, toList_toString]
    split
    · exact ⟨'-', _, rfl, rfl⟩
    · obtain ⟨c, cs, hdigits, hc⟩ := toDigits_eq_cons v.natAbs
      exact ⟨c, cs, hdigits, kind_ofChar_of_isDigit hc⟩
  | float bits => cases h
  | binary bs => exact ⟨'<', _, rfl, rfl⟩
  | nil => exact ⟨'[', _, rfl, rfl⟩
  | list items => exact ⟨'[', _, rfl, rfl⟩
  | improperList items tail => exact ⟨'[', _, rfl, rfl⟩
  | tuple items => exact ⟨'\x7b', _, rfl, rfl⟩
  | map pairs => exact ⟨'#', _, rfl, rfl⟩
  | other text => cases h

theorem opens_termChars {t : Term} (h : t.legible = true) : Opens (termChars t) := by
  obtain ⟨c, more, htext, hkind⟩ := termChars_eq_cons h
  refine ⟨c, more, htext, fun hc => ?_⟩
  rw [kind_ofChar_of_closer c hc] at hkind
  cases t <;> cases hkind
  cases h

theorem kind_eq {t u : Term} (ht : t.legible = true) (hu : u.legible = true)
    (h : termChars t ++ r = termChars u ++ s) : kind t = kind u := by
  obtain ⟨c, more, htext, hc⟩ := termChars_eq_cons ht
  obtain ⟨d, more', htext', hd⟩ := termChars_eq_cons hu
  rw [htext, htext'] at h
  rw [← hc, ← hd, (List.cons.inj h).1]

/-! ### Terms -/

abbrev TermTold : Term → Prop := Told termChars fun t => t.legible = true

theorem told_atom (name : String) : TermTold (.atom name) := by
  intro u r s hu hr hs h
  have hkind := kind_eq rfl hu h
  cases u with
  | atom name' =>
    obtain ⟨hname, hrest⟩ := atomChars_append_inj hr hs h
    exact ⟨by rw [String.toList_inj.mp hname], hrest⟩
  | _ => cases hkind

theorem told_integer (v : Int) : TermTold (.integer v) := by
  intro u r s hu hr hs h
  have hkind := kind_eq rfl hu h
  cases u with
  | integer w =>
    obtain ⟨rfl, hrest⟩ := toString_append_inj hr hs h
    exact ⟨rfl, hrest⟩
  | float bits => cases hu
  | _ => cases hkind

theorem told_binary (bs : Bytes) : TermTold (.binary bs) := by
  intro u r s hu _ _ h
  have hkind := kind_eq rfl hu h
  cases u with
  | binary bs' =>
    obtain ⟨rfl, hrest⟩ := binaryChars_append_inj h
    exact ⟨rfl, hrest⟩
  | _ => cases hkind

theorem termsChars_eq_map (ts : List Term) : termsChars ts = ts.map termChars := by
  induction ts with
  | nil => rfl
  | cons t ts ih => rw [termsChars, ih, List.map_cons]

theorem legibleAll_iff {ts : List Term} :
    Term.legibleAll ts = true ↔ ∀ t ∈ ts, t.legible = true := by
  induction ts with
  | nil => simp [Term.legibleAll]
  | cons t ts ih => rw [Term.legibleAll, Bool.and_eq_true, ih, List.forall_mem_cons]

theorem items_append_inj {ts us : List Term} (hts : Term.legibleAll ts = true)
    (htold : ∀ t ∈ ts, TermTold t) (hus : Term.legibleAll us = true) (hr : Closes r)
    (hs : Closes s)
    (h : join [',', ' '] (termsChars ts) ++ r = join [',', ' '] (termsChars us) ++ s) :
    ts = us ∧ r = s := by
  rw [termsChars_eq_map, termsChars_eq_map] at h
  exact join_append_inj (fun _ => opens_termChars) (legibleAll_iff.mp hts) htold
    (legibleAll_iff.mp hus) hr hs h

theorem told_tuple {ts : List Term} (hts : Term.legibleAll ts = true)
    (htold : ∀ t ∈ ts, TermTold t) : TermTold (.tuple ts) := by
  intro u r s hu _ _ h
  have hkind := kind_eq (t := .tuple ts) hts hu h
  cases u with
  | tuple us =>
    have hitems : join [',', ' '] (termsChars ts) ++ '\x7d' :: r =
        join [',', ' '] (termsChars us) ++ '\x7d' :: s := by
      simpa [termChars, enclosed] using h
    obtain ⟨rfl, hend⟩ := items_append_inj hts htold hu (closes_cons (by decide))
      (closes_cons (by decide)) hitems
    exact ⟨rfl, (List.cons.inj hend).2⟩
  | _ => cases hkind

/-! ### Lists -/

/-- The elements of a list, and what it ends in unless that is the empty list. -/
def spine? : Term → Option (List Term × Option Term)
  | .nil => some ([], none)
  | .list items => some (items, none)
  | .improperList items tail => some (items, some tail)
  | _ => none

/-- What stands behind the last element. -/
def ending : Option Term → List Char
  | none => [']']
  | some tail => [' ', '|', ' '] ++ termChars tail ++ [']']

theorem exists_spine_of_kind {t : Term} (h : kind t = .list) : ∃ p, spine? t = some p := by
  cases t <;> first | exact ⟨_, rfl⟩ | cases h

theorem termChars_of_spine {t : Term} {items : List Term} {tail : Option Term}
    (h : spine? t = some (items, tail)) :
    termChars t = '[' :: (join [',', ' '] (termsChars items) ++ ending tail) := by
  cases t <;> cases h <;> simp [termChars, enclosed, ending, termsChars, join]

theorem legible_of_spine {t : Term} {items : List Term} {tail : Option Term}
    (ht : t.legible = true) (h : spine? t = some (items, tail)) :
    Term.legibleAll items = true ∧ ∀ u ∈ tail, u.legible = true := by
  cases t <;> cases h <;> simp_all [Term.legible, Term.legibleAll]

theorem eq_of_spine {t u : Term} (ht : t.legible = true) (hu : u.legible = true)
    (h : spine? t = spine? u) (hkind : kind t = .list) : t = u := by
  -- Only `nil` and `list []` have the same elements and end, and `list []` is not legible.
  cases t <;> cases hkind <;> cases u <;> simp_all [spine?, Term.legible]

theorem closes_ending (tail : Option Term) : Closes (ending tail ++ r) := by
  cases tail with
  | none => exact closes_cons (by decide)
  | some tail => exact closes_cons (by decide)

theorem ending_append_inj {tail tail' : Option Term} (htold : ∀ t ∈ tail, TermTold t)
    (hok : ∀ t ∈ tail', t.legible = true) (h : ending tail ++ r = ending tail' ++ s) :
    tail = tail' ∧ r = s := by
  cases tail with
  | none =>
    cases tail' with
    | none => exact ⟨rfl, (List.cons.inj h).2⟩
    | some u => exact absurd (List.cons.inj h).1 (by decide)
  | some t =>
    cases tail' with
    | none => exact absurd (List.cons.inj h).1 (by decide)
    | some u =>
      have htail : termChars t ++ ']' :: r = termChars u ++ ']' :: s := by
        simpa [ending] using h
      obtain ⟨rfl, hend⟩ := htold t rfl u _ _ (hok u rfl) (follows_cons (by decide))
        (follows_cons (by decide)) htail
      exact ⟨rfl, (List.cons.inj hend).2⟩

/-- Elements end at the bracket or at the bar, and it is the bar exactly if a tail is written. -/
theorem told_of_spine {t : Term} {items : List Term} {tail : Option Term}
    (ht : t.legible = true) (hspine : spine? t = some (items, tail))
    (hitems : ∀ t ∈ items, TermTold t) (htail : ∀ t ∈ tail, TermTold t) : TermTold t := by
  intro u r s hu _ _ h
  have hkind : kind t = .list := by cases t <;> first | rfl | cases hspine
  obtain ⟨⟨items', tail'⟩, hspine'⟩ := exists_spine_of_kind ((kind_eq ht hu h).symm.trans hkind)
  rw [termChars_of_spine hspine, termChars_of_spine hspine', List.cons_append, List.cons_append,
    List.append_assoc, List.append_assoc] at h
  obtain ⟨hlegible, -⟩ := legible_of_spine ht hspine
  obtain ⟨hlegible', htail'⟩ := legible_of_spine hu hspine'
  obtain ⟨rfl, hend⟩ := items_append_inj hlegible hitems hlegible' (closes_ending tail)
    (closes_ending tail') (List.cons.inj h).2
  obtain ⟨rfl, hrest⟩ := ending_append_inj htail htail' hend
  exact ⟨eq_of_spine ht hu (hspine.trans hspine'.symm) hkind, hrest⟩

/-! ### Maps -/

def pairChars (p : Term × Term) : List Char :=
  termChars p.1 ++ [' ', '=', '>', ' '] ++ termChars p.2

def PairLegible (p : Term × Term) : Prop := p.1.legible = true ∧ p.2.legible = true

theorem pairsChars_eq_map (ps : List (Term × Term)) : pairsChars ps = ps.map pairChars := by
  induction ps with
  | nil => rfl
  | cons p ps ih =>
    rw [pairsChars, ih]
    rfl

theorem legiblePairs_iff {ps : List (Term × Term)} :
    Term.legiblePairs ps = true ↔ ∀ p ∈ ps, PairLegible p := by
  induction ps with
  | nil => simp [Term.legiblePairs]
  | cons p ps ih =>
    rw [Term.legiblePairs, Bool.and_eq_true, Bool.and_eq_true, ih, List.forall_mem_cons]
    rfl

theorem opens_pairChars {p : Term × Term} (h : PairLegible p) : Opens (pairChars p) := by
  obtain ⟨c, more, htext, hc⟩ := opens_termChars h.1
  exact ⟨c, _, by rw [pairChars, htext]; rfl, hc⟩

theorem told_pair {k v : Term} (hk : TermTold k) (hv : TermTold v) :
    Told pairChars PairLegible (k, v) := by
  rintro ⟨k', v'⟩ r s hok hr hs h
  have hkey : termChars k ++ (' ' :: '=' :: '>' :: ' ' :: (termChars v ++ r)) =
      termChars k' ++ (' ' :: '=' :: '>' :: ' ' :: (termChars v' ++ s)) := by
    simpa [pairChars] using h
  obtain ⟨rfl, hrest⟩ := hk k' _ _ hok.1 (follows_cons (by decide)) (follows_cons (by decide)) hkey
  simp only [List.cons.injEq, true_and] at hrest
  obtain ⟨rfl, hend⟩ := hv v' _ _ hok.2 hr hs hrest
  exact ⟨rfl, hend⟩

theorem told_map {ps : List (Term × Term)} (hps : Term.legiblePairs ps = true)
    (htold : ∀ p ∈ ps, Told pairChars PairLegible p) : TermTold (.map ps) := by
  intro u r s hu _ _ h
  have hkind := kind_eq (t := .map ps) hps hu h
  cases u with
  | map qs =>
    have hpairs : join [',', ' '] (ps.map pairChars) ++ '\x7d' :: r =
        join [',', ' '] (qs.map pairChars) ++ '\x7d' :: s := by
      simpa [termChars, enclosed, pairsChars_eq_map] using h
    obtain ⟨rfl, hend⟩ := join_append_inj (fun _ => opens_pairChars) (legiblePairs_iff.mp hps) htold
      (legiblePairs_iff.mp hu) (closes_cons (by decide)) (closes_cons (by decide)) hpairs
    exact ⟨rfl, (List.cons.inj hend).2⟩
  | _ => cases hkind

/-! ### Terms of any depth -/

mutual

theorem told_term : (t : Term) → t.legible = true → TermTold t
  | .atom name, _ => told_atom name
  | .integer v, _ => told_integer v
  | .binary bs, _ => told_binary bs
  | .nil, h => told_of_spine h rfl nofun nofun
  | .list items, h => by
    have hitems := told_items items (legible_of_spine h rfl).1
    exact told_of_spine h rfl hitems nofun
  | .improperList items tail, h => by
    obtain ⟨hlegible, hlegible'⟩ := legible_of_spine h rfl
    have htail := told_term tail (hlegible' tail rfl)
    apply told_of_spine h rfl (told_items items hlegible)
    rintro _ ⟨⟩
    exact htail
  | .tuple items, h => told_tuple h (told_items items h)
  | .map pairs, h => told_map h (told_pairs pairs h)

theorem told_items : (ts : List Term) → Term.legibleAll ts = true → ∀ t ∈ ts, TermTold t
  | [], _ => nofun
  | t :: ts, h => by
    rw [Term.legibleAll, Bool.and_eq_true] at h
    have hhead := told_term t h.1
    have htail := told_items ts h.2
    exact List.forall_mem_cons.mpr ⟨hhead, htail⟩

theorem told_pairs : (ps : List (Term × Term)) → Term.legiblePairs ps = true →
    ∀ p ∈ ps, Told pairChars PairLegible p
  | [], _ => nofun
  | (k, v) :: ps, h => by
    rw [Term.legiblePairs, Bool.and_eq_true, Bool.and_eq_true] at h
    have hkey := told_term k h.1.1
    have hvalue := told_term v h.1.2
    have hrest := told_pairs ps h.2
    exact List.forall_mem_cons.mpr ⟨told_pair hkey hvalue, hrest⟩

end

/-- Terms are shown alike only if they are the same. -/
theorem termChars_inj_of_legible {t u : Term} (ht : t.legible = true) (hu : u.legible = true) :
    termChars t = termChars u ↔ t = u := by
  constructor
  · intro h
    have happend : termChars t ++ [] = termChars u ++ [] := by rw [h]
    exact (told_term t ht u [] [] hu nofun nofun happend).1
  · rintro rfl
    rfl

-- A tail that is a list, and a name that looks like two.
theorem termChars_inj_of_legible_lookalikes :
    termChars (.improperList [.integer 1] (.list [.integer 2])) ≠
      termChars (.list [.integer 1, .integer 2]) ∧
    termChars (.list [.atom "a, :b"]) ≠ termChars (.list [.atom "a", .atom "b"]) := by
  constructor
  · intro h
    cases (termChars_inj_of_legible rfl rfl).mp h
  · intro h
    simpa using (termChars_inj_of_legible rfl rfl).mp h

-- What is left out is shown like something else.
example : termChars (.list []) = termChars .nil := rfl

end Format

end BeamScope
