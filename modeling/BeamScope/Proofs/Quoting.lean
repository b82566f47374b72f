import BeamScope.AbstractCode.Literal
import BeamScope.CallGraph.Dot
import BeamScope.Proofs.Drawing

/-!
# Quoted texts

Names and strings that may hold any character are written between two marks. Inside, a backslash
stands before a character that would be taken for a mark, before another backslash, and before a
letter that is short for a character. A text written like this can be read back from the beginning of
any longer text: reading ends at its closing mark, neither before nor behind it.

An atom is written without marks if its name is plain, in a program also only if the name is not a
reserved word. The bare form is never taken for a quoted one, so a written atom has one name.
-/

namespace BeamScope

/-! ### Marks and backslashes -/

structure Quotation where
  /-- Opens and closes a text. -/
  mark : Char
  /-- What stands behind a backslash in place of `c`; `none` if `c` is written as it is. -/
  escape? : Char → Option Char
  /-- What is meant by a character behind a backslash. -/
  meaning : Char → Char
  mark_ne_backslash : mark ≠ '\\'
  escape?_mark : escape? mark ≠ none
  escape?_backslash : escape? '\\' ≠ none
  meaning_of_escape? {c d : Char} : escape? c = some d → meaning d = c

namespace Quotation

variable (q : Quotation)

def charForm (c : Char) : List Char :=
  match q.escape? c with
  | some d => ['\\', d]
  | none => [c]

def write (s : List Char) : List Char := q.mark :: (s.flatMap q.charForm ++ [q.mark])

/-- The text up to the mark that closes it, and what follows. -/
def readBody : List Char → Option (List Char × List Char)
  | [] => none
  | [c] => if c = q.mark then some ([], []) else none
  | c :: d :: rest =>
    if c = q.mark then some ([], d :: rest)
    else if c = '\\' then (readBody rest).map fun (s, more) => (q.meaning d :: s, more)
    else (readBody (d :: rest)).map fun (s, more) => (c :: s, more)

def read : List Char → Option (List Char × List Char)
  | [] => none
  | c :: rest => if c = q.mark then q.readBody rest else none

theorem readBody_mark (rest : List Char) : q.readBody (q.mark :: rest) = some ([], rest) := by
  cases rest with
  | nil => simp [readBody]
  | cons d rest => simp [readBody]

theorem readBody_escaped (d : Char) (rest : List Char) :
    q.readBody ('\\' :: d :: rest) =
      (q.readBody rest).map fun (s, more) => (q.meaning d :: s, more) := by
  rw [readBody, if_neg q.mark_ne_backslash.symm, if_pos rfl]

theorem readBody_bare {c : Char} {rest : List Char} (hmark : c ≠ q.mark) (hback : c ≠ '\\') :
    q.readBody (c :: rest) = (q.readBody rest).map fun (s, more) => (c :: s, more) := by
  cases rest with
  | nil => simp [readBody, hmark]
  | cons d rest => simp [readBody, hmark, hback]

theorem ne_of_escape?_eq_none {c : Char} (h : q.escape? c = none) : c ≠ q.mark ∧ c ≠ '\\' := by
  constructor
  · rintro rfl
    exact q.escape?_mark h
  · rintro rfl
    exact q.escape?_backslash h

theorem readBody_charForm (c : Char) (rest : List Char) :
    q.readBody (q.charForm c ++ rest) = (q.readBody rest).map fun (s, more) => (c :: s, more) := by
  unfold charForm
  cases hescape : q.escape? c with
  | none =>
    obtain ⟨hmark, hback⟩ := q.ne_of_escape?_eq_none hescape
    exact q.readBody_bare hmark hback
  | some d =>
    have hmeaning := q.meaning_of_escape? hescape
    simp only [List.cons_append, List.nil_append, readBody_escaped, hmeaning]

theorem readBody_flatMap (s rest : List Char) :
    q.readBody (s.flatMap q.charForm ++ q.mark :: rest) = some (s, rest) := by
  induction s with
  | nil => exact q.readBody_mark rest
  | cons c s ih =>
    rw [List.flatMap_cons, List.append_assoc, readBody_charForm, ih]
    rfl

theorem read_write (s rest : List Char) : q.read (q.write s ++ rest) = some (s, rest) := by
  have hbody : s.flatMap q.charForm ++ [q.mark] ++ rest =
      s.flatMap q.charForm ++ q.mark :: rest := by simp
  rw [write, List.cons_append, read, if_pos rfl, hbody, readBody_flatMap]

/-- What was read is not changed by more text behind it. -/
theorem readBody_append {cs s rest : List Char} (more : List Char)
    (h : q.readBody cs = some (s, rest)) : q.readBody (cs ++ more) = some (s, rest ++ more) := by
  fun_induction readBody q cs generalizing s with
  | case1 => cases h
  | case2 =>
    cases h
    exact q.readBody_mark more
  | case3 c hc => cases h
  | case4 d tail =>
    cases h
    exact q.readBody_mark (d :: tail ++ more)
  | case5 d tail hmark ih =>
    obtain ⟨⟨s, rest⟩, hread, hs⟩ := Option.map_eq_some_iff.mp h
    cases hs
    rw [List.cons_append, List.cons_append, readBody_escaped, ih hread]
    rfl
  | case6 c d tail hmark hback ih =>
    obtain ⟨⟨s, rest⟩, hread, hs⟩ := Option.map_eq_some_iff.mp h
    cases hs
    rw [List.cons_append, q.readBody_bare hmark hback, ih hread]
    rfl

theorem read_append {cs s rest : List Char} (more : List Char) (h : q.read cs = some (s, rest)) :
    q.read (cs ++ more) = some (s, rest ++ more) := by
  cases cs with
  | nil => cases h
  | cons c cs =>
    rw [read] at h
    split at h
    · rename_i hc
      rw [List.cons_append, read, if_pos hc]
      exact q.readBody_append more h
    · cases h

end Quotation

/-! ### The forms -/

/-- The quoted forms that listings, programs and drawings have. -/
inductive QuotedForm where
  | listedAtom
  | programAtom
  | programString
  | drawnId

namespace QuotedForm

open Format AbstractCode

/-- A text in quoted form, also where a name could be written bare. -/
def chars : QuotedForm → String → List Char
  | listedAtom, s => [':', '"'] ++ escape s.toList ++ ['"']
  | programAtom, s => ['\''] ++ s.toList.flatMap atomEscape ++ ['\'']
  | programString, s => stringChars s.toList
  | drawnId, s => CallGraph.quoteChars s

/-- Marks with no other escapes than those that every quotation needs. -/
def plainQuotation (mark : Char) (h : mark ≠ '\\') : Quotation where
  mark := mark
  escape? c := if c = '\\' ∨ c = mark then some c else none
  meaning d := d
  mark_ne_backslash := h
  escape?_mark := by simp
  escape?_backslash := by simp
  meaning_of_escape? := by
    intro c d hd
    split at hd
    · exact (Option.some.inj hd).symm
    · cases hd

def stringQuotation : Quotation where
  mark := '"'
  escape? c :=
    if c = '"' ∨ c = '\\' then some c
    else if c = '\n' then some 'n'
    else if c = '\t' then some 't'
    else none
  meaning d := if d = 'n' then '\n' else if d = 't' then '\t' else d
  mark_ne_backslash := by decide
  escape?_mark := by decide
  escape?_backslash := by decide
  meaning_of_escape? := by
    intro c d hd
    split at hd
    · rename_i hc
      cases hd
      rcases hc with rfl | rfl <;> rfl
    · split at hd
      · cases hd
        simp [*]
      · split at hd
        · cases hd
          simp [*]
        · cases hd

def quotation : QuotedForm → Quotation
  | listedAtom => plainQuotation '"' (by decide)
  | programAtom => plainQuotation '\'' (by decide)
  | programString => stringQuotation
  | drawnId => plainQuotation '"' (by decide)

/-- What stands before the opening mark. -/
def lead : QuotedForm → List Char
  | listedAtom => [':']
  | _ => []

/-- One quoted text and what follows it. -/
def read (form : QuotedForm) (cs : List Char) : Option (List Char × List Char) :=
  (Text.after? form.lead cs).bind form.quotation.read

theorem charForm_plain (mark : Char) (h : mark ≠ '\\') (c : Char) :
    (plainQuotation mark h).charForm c =
      if c = '\\' then ['\\', '\\'] else if c = mark then ['\\', mark] else [c] := by
  unfold Quotation.charForm plainQuotation
  by_cases hback : c = '\\'
  · simp [hback]
  · by_cases hmark : c = mark
    · simp [hmark, h]
    · simp [hback, hmark]

theorem charForm_escape : (plainQuotation '"' (by decide)).charForm = escapeChar :=
  funext (charForm_plain '"' _)

theorem charForm_atom : (plainQuotation '\'' (by decide)).charForm = atomEscape :=
  funext (charForm_plain '\'' _)

theorem charForm_string (c : Char) : stringQuotation.charForm c = stringEscape c := by
  unfold Quotation.charForm stringQuotation stringEscape
  by_cases hquote : c = '"'
  · simp [hquote]
  · by_cases hback : c = '\\'
    · simp [hback]
    · by_cases hfeed : c = '\n'
      · simp [hfeed]
      · by_cases htab : c = '\t'
        · simp [htab]
        · simp [hquote, hback, hfeed, htab]

theorem chars_eq (form : QuotedForm) (s : String) :
    form.chars s = form.lead ++ form.quotation.write s.toList := by
  have hstring : stringQuotation.charForm = stringEscape := funext charForm_string
  cases form with
  | listedAtom =>
    change _ = [':'] ++ '"' :: (s.toList.flatMap (plainQuotation '"' _).charForm ++ ['"'])
    rw [charForm_escape]
    rfl
  | programAtom =>
    change _ = '\'' :: (s.toList.flatMap (plainQuotation '\'' _).charForm ++ ['\''])
    rw [charForm_atom]
    rfl
  | programString =>
    change _ = '"' :: (s.toList.flatMap stringQuotation.charForm ++ ['"'])
    rw [hstring]
    rfl
  | drawnId =>
    change _ = '"' :: (s.toList.flatMap (plainQuotation '"' _).charForm ++ ['"'])
    rw [charForm_escape]
    rfl

/-- A text with `new` in the place of every `old`. -/
def replaced (old : Char) (new cs : List Char) : List Char :=
  cs.flatMap fun c => if c = old then new else [c]

/-- Two replacements in the whole text do what is done to each character: backslashes are doubled
before others are put in front of the marks. -/
theorem replaced_replaced {mark : Char} (h : mark ≠ '\\') (cs : List Char) :
    replaced mark ['\\', mark] (replaced '\\' ['\\', '\\'] cs) =
      cs.flatMap (plainQuotation mark h).charForm := by
  unfold replaced
  rw [List.flatMap_assoc]
  congr 1
  funext c
  rw [charForm_plain]
  by_cases hback : c = '\\'
  · simp [hback, h.symm]
  · by_cases hmark : c = mark
    · simp [hmark, h]
    · simp [hback, hmark]

theorem escape_eq_replaced (cs : List Char) :
    escape cs = replaced '"' ['\\', '"'] (replaced '\\' ['\\', '\\'] cs) := by
  rw [replaced_replaced (by decide), charForm_escape]
  rfl

theorem flatMap_atomEscape_eq_replaced (cs : List Char) :
    cs.flatMap atomEscape = replaced '\'' ['\\', '\''] (replaced '\\' ['\\', '\\'] cs) := by
  rw [replaced_replaced (by decide), charForm_atom]

/-- A form without letters for characters is written by two replacements in the whole text, first of
the backslashes and then of the marks. -/
theorem chars_eq_replaced {form : QuotedForm} (h : form ≠ .programString) (s : String) :
    form.chars s =
      form.lead ++ [form.quotation.mark] ++
        replaced form.quotation.mark ['\\', form.quotation.mark]
          (replaced '\\' ['\\', '\\'] s.toList) ++
        [form.quotation.mark] := by
  cases form with
  | listedAtom =>
    rw [chars, escape_eq_replaced]
    rfl
  | programAtom =>
    rw [chars, flatMap_atomEscape_eq_replaced]
    rfl
  | programString => exact absurd rfl h
  | drawnId =>
    rw [chars, CallGraph.quoteChars, escape_eq_replaced]
    rfl

theorem read_chars (form : QuotedForm) (s : String) (rest : List Char) :
    form.read (form.chars s ++ rest) = some (s.toList, rest) := by
  rw [read, chars_eq, List.append_assoc, Text.after?_append, Option.bind_some,
    Quotation.read_write]

theorem read_append (form : QuotedForm) {cs s rest : List Char} (more : List Char)
    (h : form.read cs = some (s, rest)) : form.read (cs ++ more) = some (s, rest ++ more) := by
  obtain ⟨tail, htail, hread⟩ := Option.bind_eq_some_iff.mp h
  have hmore : Text.after? form.lead (cs ++ more) = some (tail ++ more) := by
    rw [Text.after?_eq_some.mp htail, List.append_assoc, Text.after?_append]
  rw [read, hmore, Option.bind_some]
  exact form.quotation.read_append more hread

/-- A text that lacks something of its end is not read. -/
theorem read_of_cut (form : QuotedForm) (s : String) {cs : List Char} (hcs : cs <+: form.chars s)
    (hne : cs ≠ form.chars s) : form.read cs = none := by
  obtain ⟨more, hmore⟩ := hcs
  cases hread : form.read cs with
  | none => rfl
  | some found =>
    have hwhole := form.read_chars s []
    rw [List.append_nil, ← hmore, form.read_append more hread, Option.some.injEq,
      Prod.mk.injEq] at hwhole
    obtain ⟨-, hnil⟩ := List.append_eq_nil_iff.mp hwhole.2
    rw [hnil, List.append_nil] at hmore
    exact absurd hmore hne

theorem chars_injective (form : QuotedForm) : Function.Injective form.chars := by
  intro s t h
  have hread := form.read_chars s []
  rw [h, form.read_chars t [], Option.some.injEq, Prod.mk.injEq] at hread
  exact String.toList_injective hread.1.symm

end QuotedForm

/-! ### Atoms -/

/-- An ASCII small letter, then ASCII letters, digits, `_` or `@`. -/
def PlainName (name : String) : Prop :=
  ∃ c cs, name.toList = c :: cs ∧ ('a' ≤ c ∧ c ≤ 'z') ∧
    ∀ d ∈ cs, ('a' ≤ d ∧ d ≤ 'z') ∨ ('A' ≤ d ∧ d ≤ 'Z') ∨ ('0' ≤ d ∧ d ≤ '9') ∨ d = '_' ∨ d = '@'

theorem isLower_iff {c : Char} : c.isLower = true ↔ 'a' ≤ c ∧ c ≤ 'z' := by
  change (decide ('a' ≤ c) && decide (c ≤ 'z')) = true ↔ _
  rw [Bool.and_eq_true, decide_eq_true_eq, decide_eq_true_eq]

theorem isUpper_iff {c : Char} : c.isUpper = true ↔ 'A' ≤ c ∧ c ≤ 'Z' :=
  decide_eq_true_iff

theorem isDigit_iff {c : Char} : c.isDigit = true ↔ '0' ≤ c ∧ c ≤ '9' := by
  change (decide ('0' ≤ c) && decide (c ≤ '9')) = true ↔ _
  rw [Bool.and_eq_true, decide_eq_true_eq, decide_eq_true_eq]

theorem isNameChar_iff {c : Char} : Format.isNameChar c = true ↔
    ('a' ≤ c ∧ c ≤ 'z') ∨ ('A' ≤ c ∧ c ≤ 'Z') ∨ ('0' ≤ c ∧ c ≤ '9') ∨ c = '_' ∨ c = '@' := by
  have halphanum : c.isAlphanum = (c.isUpper || c.isLower || c.isDigit) := rfl
  rw [← isLower_iff, ← isUpper_iff, ← isDigit_iff, Format.isNameChar, halphanum]
  simp only [Bool.or_eq_true, beq_iff_eq]
  tauto

theorem isPlainName_iff {name : String} :
    Format.isPlainName name.toList = true ↔ PlainName name := by
  unfold PlainName
  cases name.toList with
  | nil => simp [Format.isPlainName]
  | cons c cs =>
    simp only [Format.isPlainName, Bool.and_eq_true, isLower_iff, List.all_eq_true, isNameChar_iff]
    constructor
    · rintro ⟨hc, hcs⟩
      exact ⟨c, cs, rfl, hc, hcs⟩
    · rintro ⟨_, _, ⟨⟩, hc, hcs⟩
      exact ⟨hc, hcs⟩

inductive AtomStyle where
  | listed
  | program

namespace AtomStyle

def text : AtomStyle → String → List Char
  | listed, name => (Format.atom name).toList
  | program, name => AbstractCode.atomChars name

def bare : AtomStyle → String → List Char
  | listed, name => ':' :: name.toList
  | program, name => name.toList

def quotedForm : AtomStyle → QuotedForm
  | listed => .listedAtom
  | program => .programAtom

/-- The names that are written bare. -/
def Bare : AtomStyle → String → Prop
  | listed, name => PlainName name
  | program, name => PlainName name ∧ name ∉ AbstractCode.reservedWords

variable (style : AtomStyle)

theorem text_cases (name : String) :
    (style.Bare name ∧ style.text name = style.bare name) ∨
      (¬style.Bare name ∧ style.text name = style.quotedForm.chars name) := by
  cases style with
  | listed =>
    have htext : listed.text name = Format.atomChars name.toList := String.toList_ofList
    rw [htext, Format.atomChars]
    change (PlainName name ∧ _) ∨ (¬PlainName name ∧ _)
    rw [← isPlainName_iff]
    split
    · exact .inl ⟨‹_›, rfl⟩
    · exact .inr ⟨‹_›, rfl⟩
  | program =>
    have hbare : AbstractCode.isBareAtom name = true ↔
        PlainName name ∧ name ∉ AbstractCode.reservedWords := by
      simp [AbstractCode.isBareAtom, isPlainName_iff]
    change ((PlainName name ∧ _) ∧ AbstractCode.atomChars name = _) ∨
      (¬(PlainName name ∧ _) ∧ AbstractCode.atomChars name = _)
    rw [← hbare, AbstractCode.atomChars]
    split
    · exact .inl ⟨‹_›, rfl⟩
    · exact .inr ⟨‹_›, rfl⟩

theorem bare_injective : Function.Injective style.bare := by
  intro a b h
  cases style with
  | listed => exact String.toList_injective (List.cons.inj h).2
  | program => exact String.toList_injective h

theorem Bare.plainName {style : AtomStyle} {name : String} (h : style.Bare name) :
    PlainName name := by
  cases style with
  | listed => exact h
  | program => exact h.1

theorem lead_bare (name : String) : style.bare name = style.quotedForm.lead ++ name.toList := by
  cases style <;> rfl

theorem not_isLower_mark : style.quotedForm.quotation.mark.isLower = false := by
  cases style <;> decide

/-- A bare form begins like no quoted one, whatever follows. -/
theorem read_bare {name : String} (h : style.Bare name) (rest : List Char) :
    style.quotedForm.read (style.bare name ++ rest) = none := by
  obtain ⟨c, cs, hname, hc, -⟩ := h.plainName
  have hmark : c ≠ style.quotedForm.quotation.mark := by
    rintro rfl
    rw [← isLower_iff, not_isLower_mark] at hc
    cases hc
  rw [QuotedForm.read, lead_bare, List.append_assoc, Text.after?_append, Option.bind_some, hname,
    List.cons_append, Quotation.read, if_neg hmark]

theorem bare_ne_quoted {a : String} (h : style.Bare a) (b : String) :
    style.bare a ≠ style.quotedForm.chars b := by
  intro heq
  have hread := style.read_bare h []
  rw [heq, QuotedForm.read_chars] at hread
  cases hread

theorem text_injective : Function.Injective style.text := by
  intro a b h
  rcases style.text_cases a with ⟨ha, hta⟩ | ⟨-, hta⟩ <;>
    rcases style.text_cases b with ⟨hb, htb⟩ | ⟨-, htb⟩ <;> rw [hta, htb] at h
  · exact style.bare_injective h
  · exact absurd h (style.bare_ne_quoted ha b)
  · exact absurd h.symm (style.bare_ne_quoted hb a)
  · exact style.quotedForm.chars_injective h

end AtomStyle

/-- Each quoted form is read back from the beginning of any text: reading ends exactly where it ends
and gives what was quoted, and a form that lacks something of its end is not read. A written atom is
bare exactly for the plain names, in a program without the reserved words, and quoted for all others.
No bare form is a quoted one, so different names are written differently. -/
theorem quoted_forms_read_back :
    (∀ (form : QuotedForm) (s : String) (rest : List Char),
      form.read (form.chars s ++ rest) = some (s.toList, rest) ∧
        ∀ cs, cs <+: form.chars s → cs ≠ form.chars s → form.read cs = none) ∧
    ∀ style : AtomStyle, Function.Injective style.text ∧
      (∀ name, (style.Bare name ∧ style.text name = style.bare name) ∨
        (¬style.Bare name ∧ style.text name = style.quotedForm.chars name)) ∧
      ∀ a b, style.Bare a → style.bare a ≠ style.quotedForm.chars b := by
  constructor
  · intro form s rest
    exact ⟨form.read_chars s rest, fun cs hcs hne => form.read_of_cut s hcs hne⟩
  · intro style
    exact ⟨style.text_injective, style.text_cases, fun a b ha => style.bare_ne_quoted ha b⟩

-- A name that ends in a backslash and a mark, with a mark behind it; a string that is cut behind an
-- escaped mark; a reserved word.
theorem quoted_forms_read_back_marks :
    QuotedForm.programAtom.read (QuotedForm.programAtom.chars "\\'" ++ ['\'']) =
        some ("\\'".toList, ['\'']) ∧
      QuotedForm.programString.read ['"', 'a', '\\', '"'] = none ∧
      AtomStyle.listed.bare "end" ≠ QuotedForm.listedAtom.chars "end" ∧
      AtomStyle.program.text "end" = QuotedForm.programAtom.chars "end" := by
  obtain ⟨hforms, hstyles⟩ := quoted_forms_read_back
  obtain ⟨-, hcases, -⟩ := hstyles .program
  obtain ⟨-, -, hapart⟩ := hstyles .listed
  refine ⟨(hforms .programAtom "\\'" ['\'']).1, ?_, ?_, ?_⟩
  · apply (hforms .programString "a\"" []).2
    · decide
    · decide
  · exact hapart "end" "end" (isPlainName_iff.mp (by decide))
  · rcases hcases "end" with ⟨hbare, -⟩ | ⟨-, htext⟩
    · exact absurd (by decide) hbare.2
    · exact htext

end BeamScope
