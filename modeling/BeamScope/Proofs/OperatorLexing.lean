import BeamScope.Proofs.Numerals
import BeamScope.Proofs.OperatorTokens
import Mathlib.Data.List.MinMax

/-!
# Where the tokens of operators end

`lex` splits a text as the language does: it takes the longest name, number or symbol at each place
and skips blanks. Every token that printing writes is found again, except a sign right before the
same sign: printing sets words apart from their operand but not signs, and two plus or minus signs
in a row are one symbol.
-/

namespace BeamScope.AbstractCode

open Text

/-! ### Splitting a text -/

def isCapital (c : Char) : Bool := ('A' ≤ c && c ≤ 'Z') || ('À' ≤ c && c ≤ 'Þ' && c != '×')

def isSmall (c : Char) : Bool := ('a' ≤ c && c ≤ 'z') || ('ß' ≤ c && c ≤ 'ÿ' && c != '÷')

def isNameChar (c : Char) : Bool := isCapital c || isSmall c || c.isDigit || c == '_' || c == '@'

def startsVariable (c : Char) : Bool := isCapital c || c == '_'

def isGap (c : Char) : Bool := c.toNat ≤ 32 || (128 ≤ c.toNat && c.toNat ≤ 160)

/-- The symbols of the language that are made of marks. -/
def symbols : List String := [
    "(", ")", "[", "]", "\x7b", "\x7d", ",", ";", ".", "..", "...", ":", "::", ":=", "|", "||", "?",
    "?=", "#", "!", "=", "==", "=:=", "=/=", "=<", "=>", "<", "<=", "<-", "<<", "<:-", "<:=", ">",
    ">=", ">>", "+", "++", "-", "--", "->", "*", "/", "/=", "&&"]

/-- The longest symbol at the start of a text. -/
def longest? (cs : List Char) : Option String :=
  (symbols.filter fun s => s.toList.isPrefixOf cs).argmax fun s => s.toList.length

/-- Whether digits go on as a number of another kind: grouped, in a base or with a fraction. -/
def goesOn : List Char → Bool
  | '_' :: d :: _ => d.isDigit
  | '#' :: _ => true
  | '.' :: d :: _ => d.isDigit
  | _ => false

/-- The token at the start of a text that does not begin with a blank, and what is left behind it.
Strings, characters, quoted atoms and numbers of other kinds are not read. -/
def nextToken? : List Char → Option (Token × List Char)
  | [] => none
  | c :: cs =>
    let name := String.ofList (c :: cs.takeWhile isNameChar)
    let behind := cs.dropWhile isNameChar
    if startsVariable c then some (.var name, behind)
    else if isSmall c then
      some (if name ∈ reservedWords then .fixed name else .atom name, behind)
    else if c.isDigit then
      let digits := (c :: cs).takeWhile Char.isDigit
      let behind := (c :: cs).dropWhile Char.isDigit
      if goesOn behind then none else (natOfDigits? 10 0 digits).map fun n => (.integer n, behind)
    else (longest? (c :: cs)).map fun s => (.fixed s, (c :: cs).drop s.toList.length)

theorem length_symbol_pos {s : String} (h : s ∈ symbols) : 0 < s.toList.length := by
  have hall : ∀ s ∈ symbols, 0 < s.toList.length := by decide
  exact hall s h

theorem mem_of_longest? {cs : List Char} {s : String} (h : longest? cs = some s) :
    s ∈ symbols ∧ s.toList <+: cs := by
  have hmem := List.argmax_mem h
  rw [List.mem_filter, List.isPrefixOf_iff_prefix] at hmem
  exact hmem

theorem length_lt_of_nextToken? {cs after : List Char} {t : Token}
    (h : nextToken? cs = some (t, after)) : after.length < cs.length := by
  cases cs with
  | nil => cases h
  | cons c cs =>
    have hname := (List.dropWhile_suffix (l := cs) isNameChar).length_le
    have hnumber := (List.dropWhile_suffix (l := cs) Char.isDigit).length_le
    simp only [nextToken?] at h
    split at h
    · cases h
      exact Nat.lt_succ_of_le hname
    · split at h
      · cases h
        exact Nat.lt_succ_of_le hname
      · split at h
        next hdigit =>
          split at h
          · cases h
          · obtain ⟨n, -, hn⟩ := Option.map_eq_some_iff.mp h
            cases hn
            rw [List.dropWhile_cons, if_pos hdigit]
            exact Nat.lt_succ_of_le hnumber
        · obtain ⟨s, hs, hn⟩ := Option.map_eq_some_iff.mp h
          cases hn
          have hpos := length_symbol_pos (mem_of_longest? hs).1
          rw [List.length_drop, List.length_cons]
          omega

/-- The tokens of a text, if all of it can be read. -/
def lex (cs : List Char) : Option (List Token) :=
  match cs with
  | [] => some []
  | c :: rest =>
    if isGap c then lex rest
    else
      match _hnext : nextToken? (c :: rest) with
      | none => none
      | some (t, after) => (lex after).map (t :: ·)
termination_by cs.length
decreasing_by
  · exact Nat.lt_succ_self _
  · exact length_lt_of_nextToken? _hnext

theorem lex_of_nextToken? {c : Char} {rest after : List Char} {t : Token}
    (hgap : isGap c = false) (hnext : nextToken? (c :: rest) = some (t, after)) :
    lex (c :: rest) = (lex after).map (t :: ·) := by
  rw [lex, if_neg (by simp [hgap])]
  split
  next hnone => rw [hnext] at hnone; cases hnone
  next t' after' hsome =>
    rw [hnext] at hsome
    cases hsome
    rfl

theorem lex_blank (cs : List Char) : lex (' ' :: cs) = lex cs := by
  rw [lex, if_pos (by decide)]

/-! ### One token -/

theorem takeWhile_stop {p : Char → Bool} {cs rest : List Char} (hcs : ∀ c ∈ cs, p c = true)
    (hrest : ∀ c ∈ rest.head?, p c = false) :
    (cs ++ rest).takeWhile p = cs ∧ (cs ++ rest).dropWhile p = rest := by
  rw [List.takeWhile_append_of_pos hcs, List.dropWhile_append_of_pos hcs]
  cases rest with
  | nil => simp
  | cons c rest => simp [hrest c rfl]

/-- The characters that can stand behind an expression. -/
def Stops (cs : List Char) : Prop := ∀ c ∈ cs.head?, c = ' ' ∨ c = ')'

theorem stops_blank (cs : List Char) : Stops (' ' :: cs) := by
  intro c hc
  cases hc
  exact .inl rfl

theorem stops_closing (cs : List Char) : Stops (')' :: cs) := by
  intro c hc
  cases hc
  exact .inr rfl

theorem Stops.head {cs : List Char} (h : Stops cs) {p : Char → Bool} (hblank : p ' ' = false)
    (hclosing : p ')' = false) : ∀ c ∈ cs.head?, p c = false := by
  intro c hc
  rcases h c hc with rfl | rfl
  · exact hblank
  · exact hclosing

def isVariableName (name : String) : Bool :=
  match name.toList with
  | [] => false
  | c :: cs => startsVariable c && cs.all isNameChar

theorem isGap_eq_false {c : Char} (h : 32 < c.toNat) (hhigh : c.toNat < 128 ∨ 160 < c.toNat) :
    isGap c = false := by
  simp only [isGap, Bool.or_eq_false_iff, Bool.and_eq_false_iff, decide_eq_false_iff_not]
  omega

theorem isGap_of_startsVariable {c : Char} (h : startsVariable c = true) : isGap c = false := by
  simp only [startsVariable, isCapital, Bool.or_eq_true, Bool.and_eq_true, decide_eq_true_eq,
    beq_iff_eq, bne_iff_ne] at h
  rcases h with (⟨hlow, hhigh⟩ | ⟨⟨hlow, -⟩, -⟩) | rfl
  · have hlow' : 'A'.toNat ≤ c.toNat := hlow
    have hhigh' : c.toNat ≤ 'Z'.toNat := hhigh
    exact isGap_eq_false (Nat.lt_of_lt_of_le (by decide) hlow')
      (.inl (Nat.lt_of_le_of_lt hhigh' (by decide)))
  · have hlow' : 'À'.toNat ≤ c.toNat := hlow
    exact isGap_eq_false (Nat.lt_of_lt_of_le (by decide) hlow')
      (.inr (Nat.lt_of_lt_of_le (by decide) hlow'))
  · decide

theorem lex_var {name : String} (h : isVariableName name = true) {rest : List Char}
    (hrest : Stops rest) : lex (name.toList ++ rest) = (lex rest).map (.var name :: ·) := by
  unfold isVariableName at h
  split at h
  · cases h
  next c cs hname =>
    rw [Bool.and_eq_true, List.all_eq_true] at h
    obtain ⟨htake, hdrop⟩ := takeWhile_stop h.2 (hrest.head (by decide) (by decide))
    rw [hname, List.cons_append]
    refine lex_of_nextToken? (isGap_of_startsVariable h.1) ?_
    rw [nextToken?, htake, hdrop, if_pos h.1, ← hname, String.ofList_toList]

theorem intChars_natCast (n : Nat) : intChars n = Nat.toDigits 10 n := by
  rw [intChars, toList_toString, if_neg (by omega), Int.natAbs_natCast]

theorem isDigit_of_mem {n : Nat} {c : Char} (hc : c ∈ Nat.toDigits 10 n) : c.isDigit = true :=
  Nat.isDigit_of_mem_toDigits (by decide) (by decide) hc

theorem lex_integer (n : Nat) {rest : List Char} (hrest : Stops rest) :
    lex (intChars n ++ rest) = (lex rest).map (.integer n :: ·) := by
  have hall : ∀ c ∈ Nat.toDigits 10 n, c.isDigit = true := fun c hc => isDigit_of_mem hc
  obtain ⟨htake, hdrop⟩ := takeWhile_stop hall (hrest.head (by decide) (by decide))
  have hends : goesOn rest = false := by
    cases rest with
    | nil => rfl
    | cons c rest =>
      rcases hrest c rfl with rfl | rfl
      · rfl
      · rfl
  have hvalue := natOfDigits?_toDigits n
  rw [intChars_natCast]
  cases hcs : Nat.toDigits 10 n with
  | nil => exact absurd hcs Nat.toDigits_ne_nil
  | cons c cs =>
    rw [hcs] at hall htake hdrop hvalue
    obtain ⟨d, hd, -⟩ := Option.bind_eq_some_iff.mp hvalue
    obtain ⟨hlt, rfl⟩ := digit?_eq_some hd
    have hclass : ∀ d < 10, startsVariable (Nat.digitChar d) = false ∧
        isSmall (Nat.digitChar d) = false ∧ isGap (Nat.digitChar d) = false := by decide
    obtain ⟨hvar, hsmall, hgap⟩ := hclass d hlt
    rw [List.cons_append] at htake hdrop ⊢
    refine lex_of_nextToken? hgap ?_
    rw [nextToken?, if_neg (by simp [hvar]), if_neg (by simp [hsmall]),
      if_pos (hall _ (List.mem_cons_self ..)), htake, hdrop, if_neg (by simp [hends]), hvalue]
    rfl

theorem lex_word {w : String} (hw : w ∈ reservedWords) {rest : List Char} (hrest : Stops rest) :
    lex (w.toList ++ rest) = (lex rest).map (.fixed w :: ·) := by
  have hheads : ∀ w ∈ reservedWords,
      (w.toList.head?.any fun c => !startsVariable c && isSmall c && !isGap c) = true := by decide
  have htails : ∀ w ∈ reservedWords, w.toList.tail.all isNameChar = true := by decide
  obtain ⟨c, hc, hclass⟩ := (Option.any_eq_true _ _).mp (hheads w hw)
  obtain ⟨cs, hcs⟩ := List.head?_eq_some_iff.mp hc
  simp only [Bool.and_eq_true, Bool.not_eq_true'] at hclass
  obtain ⟨⟨hvar, hsmall⟩, hgap⟩ := hclass
  have htail := htails w hw
  rw [hcs, List.tail_cons, List.all_eq_true] at htail
  obtain ⟨htake, hdrop⟩ := takeWhile_stop htail (hrest.head (by decide) (by decide))
  rw [hcs, List.cons_append]
  refine lex_of_nextToken? hgap ?_
  rw [nextToken?, htake, hdrop, if_neg (by simp [hvar]), if_pos hsmall, ← hcs,
    String.ofList_toList, if_pos hw]

/-- A symbol ends where no longer one goes on. -/
def Ends (s : String) (rest : List Char) : Prop :=
  ∀ c ∈ rest.head?, ∀ s' ∈ symbols, ¬s.toList ++ [c] <+: s'.toList

theorem length_le_of_ends {s s' : String} {rest : List Char} (hends : Ends s rest)
    (hs' : s' ∈ symbols) (hpre : s'.toList <+: s.toList ++ rest) :
    s'.toList.length ≤ s.toList.length := by
  refine Nat.le_of_not_lt fun hlt => ?_
  cases rest with
  | nil => exact absurd hpre.length_le (by simpa using hlt)
  | cons c rest =>
    have hlonger : s.toList ++ [c] <+: s.toList ++ c :: rest := by simp
    exact hends c rfl s' hs' (List.prefix_of_prefix_length_le hlonger hpre (by simpa using hlt))

theorem longest?_append {s : String} (hs : s ∈ symbols) {rest : List Char} (hends : Ends s rest) :
    longest? (s.toList ++ rest) = some s := by
  have hself : s ∈ symbols.filter fun s' => s'.toList.isPrefixOf (s.toList ++ rest) :=
    List.mem_filter.mpr ⟨hs, List.isPrefixOf_iff_prefix.mpr (List.prefix_append ..)⟩
  cases hbest : longest? (s.toList ++ rest) with
  | none =>
    rw [longest?, List.argmax_eq_none] at hbest
    rw [hbest] at hself
    cases hself
  | some best =>
    obtain ⟨hmem, hpre⟩ := mem_of_longest? hbest
    have hle := List.le_of_mem_argmax hself hbest
    have hge := length_le_of_ends hends hmem hpre
    have heq : best.toList = s.toList :=
      (List.prefix_of_prefix_length_le hpre (List.prefix_append ..) hge).eq_of_length
        (Nat.le_antisymm hge hle)
    rw [String.toList_injective heq]

theorem lex_symbol {s : String} (hs : s ∈ symbols) {rest : List Char} (hends : Ends s rest) :
    lex (s.toList ++ rest) = (lex rest).map (.fixed s :: ·) := by
  have hheads : ∀ s ∈ symbols, (s.toList.head?.any fun c =>
      !startsVariable c && !isSmall c && !c.isDigit && !isGap c) = true := by decide
  obtain ⟨c, hc, hclass⟩ := (Option.any_eq_true _ _).mp (hheads s hs)
  obtain ⟨cs, hcs⟩ := List.head?_eq_some_iff.mp hc
  simp only [Bool.and_eq_true, Bool.not_eq_true'] at hclass
  obtain ⟨⟨⟨hvar, hsmall⟩, hdigit⟩, hgap⟩ := hclass
  have hlongest := longest?_append hs hends
  rw [hcs, List.cons_append] at hlongest ⊢
  refine lex_of_nextToken? hgap ?_
  rw [nextToken?, if_neg (by simp [hvar]), if_neg (by simp [hsmall]), if_neg (by simp [hdigit]),
    hlongest, Option.map_some, ← List.cons_append, ← hcs, List.drop_left]

/-! ### Where symbols end -/

theorem not_isNameChar_of_mem {s : String} (hs : s ∈ symbols) {c : Char} (hc : c ∈ s.toList) :
    isNameChar c = false := by
  have hall : ∀ s ∈ symbols, (s.toList.all fun c => !isNameChar c) = true := by decide
  have hmark := List.all_eq_true.mp (hall s hs) c hc
  rwa [Bool.not_eq_true'] at hmark

theorem ends_name (s : String) {c : Char} (hc : isNameChar c = true) (rest : List Char) :
    Ends s (c :: rest) := by
  intro c' hc' s' hs' hpre
  cases hc'
  have hmem : c ∈ s'.toList := hpre.subset (by simp)
  rw [not_isNameChar_of_mem hs' hmem] at hc
  cases hc

theorem ends_blank (s : String) (rest : List Char) : Ends s (' ' :: rest) := by
  have hall : ∀ s' ∈ symbols, ' ' ∉ s'.toList := by decide
  intro c hc s' hs' hpre
  cases hc
  exact hall s' hs' (hpre.subset (by simp))

theorem ends_of_maximal {s : String} (hmax : ∀ s' ∈ symbols, s.toList <+: s'.toList → s' = s)
    (rest : List Char) : Ends s rest := by
  intro c hc s' hs' hpre
  have heq := hmax s' hs' ((List.prefix_append ..).trans hpre)
  rw [heq] at hpre
  exact absurd hpre.length_le (by simp)

theorem lex_opening (rest : List Char) : lex ('(' :: rest) = (lex rest).map (.fixed "(" :: ·) :=
  lex_symbol (s := "(") (by decide) (ends_of_maximal (by decide) rest)

theorem lex_closing (rest : List Char) : lex (')' :: rest) = (lex rest).map (.fixed ")" :: ·) :=
  lex_symbol (s := ")") (by decide) (ends_of_maximal (by decide) rest)

theorem lex_before_blank {op : String} (hop : op ∈ symbols ∨ op ∈ reservedWords)
    (rest : List Char) : lex (op.toList ++ ' ' :: rest) = (lex rest).map (.fixed op :: ·) := by
  rw [← lex_blank rest]
  rcases hop with hsymbol | hword
  · exact lex_symbol hsymbol (ends_blank op rest)
  · exact lex_word hword (stops_blank rest)

/-! ### Expressions -/

namespace OpExpr

def vars : OpExpr → List String
  | var name => [name]
  | integer _ => []
  | binary _ left right => left.vars ++ right.vars
  | unary _ arg => arg.vars
  | match_ pattern value => pattern.vars ++ value.vars
  | catch_ inner => inner.vars

def beginsWith (op : String) : OpExpr → Bool
  | unary op' _ => op'.1 == op
  | _ => false

/-- Whether no sign is applied right to the same sign. -/
def signsApart : OpExpr → Bool
  | var _ => true
  | integer _ => true
  | binary _ left right => left.signsApart && right.signsApart
  | unary op arg => !(signs.contains op.1 && arg.beginsWith op) && arg.signsApart
  | match_ pattern value => pattern.signsApart && value.signsApart
  | catch_ inner => inner.signsApart

end OpExpr

/-- In front of anything that stops an expression, `cs` is split into `ts` exactly if `apart`. -/
def Splits (cs : List Char) (ts : List Token) (apart : Bool) : Prop :=
  ∀ rest, Stops rest → ∀ more,
    lex (cs ++ rest) = some (ts ++ more) ↔ apart = true ∧ lex rest = some more

theorem map_cons_eq_some {o : Option (List Token)} {t : Token} {ts : List Token} :
    o.map (t :: ·) = some (t :: ts) ↔ o = some ts := by
  cases o with
  | none => simp
  | some ts' => simp

namespace Splits

variable {cs cs' : List Char} {ts ts' : List Token} {apart apart' : Bool}

theorem of_lex {t : Token}
    (h : ∀ rest, Stops rest → lex (cs ++ rest) = (lex rest).map (t :: ·)) :
    Splits cs [t] true := by
  intro rest hrest more
  rw [h rest hrest, List.singleton_append, map_cons_eq_some]
  simp

theorem bracketed (h : Splits cs ts apart) :
    Splits ('(' :: cs ++ [')']) (.fixed "(" :: ts ++ [.fixed ")"]) apart := by
  intro rest hrest more
  have hchars : '(' :: cs ++ [')'] ++ rest = '(' :: (cs ++ ')' :: rest) := by simp
  have htokens : Token.fixed "(" :: ts ++ [.fixed ")"] ++ more =
      .fixed "(" :: (ts ++ .fixed ")" :: more) := by simp
  rw [hchars, htokens, lex_opening, map_cons_eq_some, h _ (stops_closing rest), lex_closing,
    map_cons_eq_some]

theorem before_blank {op : String} (hop : op ∈ symbols ∨ op ∈ reservedWords)
    (h : Splits cs ts apart) : Splits (op.toList ++ ' ' :: cs) (.fixed op :: ts) apart := by
  intro rest hrest more
  rw [List.append_assoc, List.cons_append, lex_before_blank hop, List.cons_append,
    map_cons_eq_some, h rest hrest]

theorem between {op : String} (hop : op ∈ symbols ∨ op ∈ reservedWords) (hl : Splits cs ts apart)
    (hr : Splits cs' ts' apart') :
    Splits (cs ++ ' ' :: op.toList ++ ' ' :: cs') (ts ++ .fixed op :: ts') (apart && apart') := by
  intro rest hrest more
  calc lex (cs ++ ' ' :: op.toList ++ ' ' :: cs' ++ rest) = some (ts ++ .fixed op :: ts' ++ more)
    _ ↔ lex (cs ++ ' ' :: (op.toList ++ ' ' :: cs' ++ rest)) =
          some (ts ++ (.fixed op :: ts' ++ more)) := by simp
    _ ↔ apart = true ∧ lex (' ' :: (op.toList ++ ' ' :: cs' ++ rest)) =
          some (.fixed op :: ts' ++ more) := hl _ (stops_blank _) _
    _ ↔ apart = true ∧ apart' = true ∧ lex rest = some more := by
          rw [lex_blank, hr.before_blank hop rest hrest]
    _ ↔ (apart && apart') = true ∧ lex rest = some more := by rw [Bool.and_eq_true, and_assoc]

theorem inPlace {e : OpExpr} (h : Splits e.text e.tokens apart) (least : Nat) :
    Splits (e.textAt least) (e.tokensAt least) apart := by
  unfold OpExpr.textAt OpExpr.tokensAt
  split
  · exact h.bracketed
  · exact h

end Splits

theorem Ends.of_head {s : String} {c : Char} {cs rest : List Char} (h : Ends s [c])
    (hhead : cs.head? = some c) : Ends s (cs ++ rest) := by
  intro c' hc'
  rw [List.head?_append, hhead] at hc'
  exact h c' hc'

theorem ends_sign_opening {op : String} (hop : op ∈ signs) : Ends op ['('] := by
  have hall : ∀ op ∈ signs, ∀ s ∈ symbols, ¬op.toList ++ ['('] <+: s.toList := by decide
  intro c hc
  cases hc
  exact hall op hop

theorem ends_sign_unary {op : String} (hop : op ∈ signs) {op' : UnaryOp} (hne : op'.1 ≠ op) :
    ∃ c, op'.1.toList.head? = some c ∧ Ends op [c] := by
  have hall : ∀ op ∈ signs, ∀ op' ∈ unaryOps, op' ≠ op → (op'.toList.head?.any fun c =>
      decide (∀ s ∈ symbols, ¬op.toList ++ [c] <+: s.toList)) = true := by decide
  obtain ⟨c, hc, hends⟩ := (Option.any_eq_true _ _).mp (hall op hop op' op'.2 hne)
  refine ⟨c, hc, fun c' hc' => ?_⟩
  cases hc'
  exact of_decide_eq_true hends

theorem head?_of_isVariableName {name : String} (h : isVariableName name = true) :
    ∃ c, name.toList.head? = some c ∧ isNameChar c = true := by
  unfold isVariableName at h
  split at h
  · cases h
  next c cs hname =>
    rw [Bool.and_eq_true, startsVariable, Bool.or_eq_true] at h
    refine ⟨c, by rw [hname]; rfl, ?_⟩
    rcases h.1 with hcapital | hline
    · simp [isNameChar, hcapital]
    · simp [isNameChar, hline]

theorem head?_intChars (n : Nat) : ∃ c, (intChars n).head? = some c ∧ isNameChar c = true := by
  rw [intChars_natCast]
  cases hcs : Nat.toDigits 10 n with
  | nil => exact absurd hcs Nat.toDigits_ne_nil
  | cons c cs =>
    have hmem : c ∈ Nat.toDigits 10 n := by rw [hcs]; exact List.mem_cons_self ..
    have hdigit := isDigit_of_mem hmem
    exact ⟨c, rfl, by simp [isNameChar, hdigit]⟩

theorem OpExpr.textAt_unary (op : UnaryOp) (arg : OpExpr) :
    (unary op arg).textAt unaryPrec =
      op.1.toList ++ ((if op.1 ∈ signs then [] else [' ']) ++ arg.textAt unaryPrec) := by
  rw [textAt, prec, if_neg (Nat.lt_irrefl _), text_unary, List.append_assoc]

/-- The operand of a sign begins with a bracket, a name, a digit or another operator. -/
theorem ends_sign {op : String} (hop : op ∈ signs) {arg : OpExpr}
    (hvars : ∀ x ∈ arg.vars, isVariableName x = true) (hbegins : arg.beginsWith op = false)
    (rest : List Char) : Ends op (arg.textAt unaryPrec ++ rest) := by
  cases arg with
  | var name =>
    obtain ⟨c, hhead, hc⟩ := head?_of_isVariableName (hvars name (List.mem_singleton.mpr rfl))
    have htext : (OpExpr.var name).textAt unaryPrec = name.toList := List.append_nil _
    rw [htext]
    exact (ends_name op hc []).of_head hhead
  | integer n =>
    obtain ⟨c, hhead, hc⟩ := head?_intChars n
    have htext : (OpExpr.integer n).textAt unaryPrec = intChars n := List.append_nil _
    rw [htext]
    exact (ends_name op hc []).of_head hhead
  | binary op' l r =>
    have hlow : ∀ op ∈ binaryOps, (binaryPrec op).1 < unaryPrec := by decide
    rw [OpExpr.textAt, OpExpr.prec, if_pos (hlow op' op'.2)]
    exact (ends_sign_opening hop).of_head rfl
  | unary op' a =>
    have hne : op'.1 ≠ op := by simpa [OpExpr.beginsWith] using hbegins
    obtain ⟨c, hhead, hc⟩ := ends_sign_unary hop hne
    rw [OpExpr.textAt_unary, List.append_assoc]
    exact hc.of_head hhead
  | match_ p v => exact (ends_sign_opening hop).of_head rfl
  | catch_ i => exact (ends_sign_opening hop).of_head rfl

theorem lex_doubled {op : String} (hop : op ∈ signs) (rest : List Char) :
    lex (op.toList ++ (op.toList ++ rest)) = (lex rest).map (.fixed (op ++ op) :: ·) := by
  have hall : ∀ op ∈ signs, op ++ op ∈ symbols ∧
      ∀ s ∈ symbols, (op ++ op).toList <+: s.toList → s = op ++ op := by decide
  obtain ⟨hmem, hmax⟩ := hall op hop
  rw [← List.append_assoc, ← String.toList_append]
  exact lex_symbol hmem (ends_of_maximal hmax rest)

theorem splits_sign {op : UnaryOp} (hop : op.1 ∈ signs) {arg : OpExpr}
    (hvars : ∀ x ∈ arg.vars, isVariableName x = true)
    (harg : Splits (arg.textAt unaryPrec) (arg.tokensAt unaryPrec) arg.signsApart) :
    Splits (op.1.toList ++ arg.textAt unaryPrec) (.fixed op :: arg.tokensAt unaryPrec)
      (!arg.beginsWith op && arg.signsApart) := by
  intro rest hrest more
  cases hbegins : arg.beginsWith op with
  | false =>
    have hmem : ∀ op ∈ signs, op ∈ symbols := by decide
    rw [List.append_assoc, lex_symbol (hmem op hop) (ends_sign hop hvars hbegins rest),
      List.cons_append, map_cons_eq_some, harg rest hrest]
    rfl
  | true =>
    -- Both signs are read as one token, which is neither of them.
    cases arg with
    | unary op' a =>
      have hsame : op'.1 = op.1 := by simpa [OpExpr.beginsWith] using hbegins
      have hne : ∀ op ∈ signs, op ++ op ≠ op := by decide
      rw [OpExpr.textAt_unary, hsame, List.append_assoc, List.append_assoc, lex_doubled hop]
      simp [hne op hop]
    | _ => cases hbegins

theorem splits (e : OpExpr) (hvars : ∀ x ∈ e.vars, isVariableName x = true) :
    Splits e.text e.tokens e.signsApart := by
  induction e with
  | var name =>
    have htext : (OpExpr.var name).text = name.toList := List.append_nil _
    rw [htext]
    exact .of_lex fun rest hrest => lex_var (hvars name (List.mem_singleton.mpr rfl)) hrest
  | integer n =>
    have htext : (OpExpr.integer n).text = intChars n := List.append_nil _
    rw [htext]
    exact .of_lex fun rest hrest => lex_integer n hrest
  | binary op l r ihl ihr =>
    have hspaced : ∀ op ∈ binaryOps, op ∈ symbols ∨ op ∈ reservedWords := by decide
    obtain ⟨hvl, hvr⟩ := List.forall_mem_append.mp hvars
    rw [OpExpr.text, OpExpr.tokens, OpExpr.pieces, OpExpr.text_between, OpExpr.tokens_between]
    exact .between (hspaced op op.2) ((ihl hvl).inPlace _) ((ihr hvr).inPlace _)
  | unary op a ih =>
    have harg := (ih hvars).inPlace unaryPrec
    rw [OpExpr.text_unary, OpExpr.tokens_unary, OpExpr.signsApart]
    by_cases hop : op.1 ∈ signs
    · rw [if_pos hop, List.append_nil, List.contains_iff_mem.mpr hop, Bool.true_and]
      exact splits_sign hop hvars harg
    · have hword : ∀ op ∈ unaryOps, op ∉ signs → op ∈ reservedWords := by decide
      have hmark : signs.contains op.1 = false := by simpa using hop
      rw [if_neg hop, hmark, Bool.false_and, Bool.not_false, Bool.true_and, List.append_assoc]
      exact harg.before_blank (.inr (hword op op.2 hop))
  | match_ p v ihp ihv =>
    obtain ⟨hvp, hvv⟩ := List.forall_mem_append.mp hvars
    rw [OpExpr.text, OpExpr.tokens, OpExpr.pieces, OpExpr.text_between, OpExpr.tokens_between]
    exact .between (.inl (by decide)) ((ihp hvp).inPlace _) ((ihv hvv).inPlace _)
  | catch_ i ih =>
    rw [OpExpr.text_catch, OpExpr.tokens_catch]
    have hword : "catch" ∈ symbols ∨ "catch" ∈ reservedWords := .inr (by decide)
    exact (ih hvars).before_blank hword

theorem stops_nil : Stops [] := fun _ hc => by cases hc

theorem lex_nil : lex [] = some [] := by rw [lex]

/-- Splitting the text of an expression finds the tokens that were written, exactly if no sign is
applied right to the same sign. -/
theorem tokens_found_iff_signsApart (t : Term) (e : OpExpr) (h : Represents t e)
    (hvars : ∀ x ∈ e.vars, isVariableName x = true) :
    exprChars t = e.pieces.flatMap Piece.chars ∧
    (lex (exprChars t) = some (e.pieces.filterMap Piece.token?) ↔ e.signsApart = true) := by
  have hwhole := splits e hvars [] stops_nil []
  rw [List.append_nil, List.append_nil, lex_nil, and_iff_left rfl, ← exprChars_eq h] at hwhole
  exact ⟨exprChars_eq h, hwhole⟩

-- Two different signs in a row, behind an operator made of two marks.
theorem tokens_found_iff_signsApart_minus_plus :
    let minus : UnaryOp := ⟨"-", by decide⟩
    let plus : UnaryOp := ⟨"+", by decide⟩
    let e : OpExpr := .binary ⟨"--", by decide⟩ (.var "X") (.unary minus (.unary plus (.integer 1)))
    ∃ t, Represents t e ∧ exprChars t = "X -- -+1".toList ∧
      lex (exprChars t) =
        some [.var "X", .fixed "--", .fixed "-", .fixed "+", .integer 1] := by
  intro minus plus e
  have hright := Represents.unary .nil minus (.unary .nil plus (.integer .nil 1))
  have hwhole := Represents.binary .nil ⟨"--", by decide⟩ (.var .nil "X") hright
  obtain ⟨htext, hlex⟩ := tokens_found_iff_signsApart _ e hwhole (by decide)
  have hchars : e.pieces.flatMap Piece.chars = "X -- -+1".toList := by decide +kernel +zetaReduce
  have htokens : e.pieces.filterMap Piece.token? =
      [.var "X", .fixed "--", .fixed "-", .fixed "+", .integer 1] := by decide +kernel +zetaReduce
  exact ⟨_, hwhole, htext.trans hchars, (hlex.mpr (by decide)).trans (congrArg some htokens)⟩

theorem two_minus_signs_fuse :
    let minus : UnaryOp := ⟨"-", by decide⟩
    let e : OpExpr := .unary minus (.unary minus (.var "X"))
    ∃ t, Represents t e ∧ exprChars t = "--X".toList ∧
      e.pieces.filterMap Piece.token? = [.fixed "-", .fixed "-", .var "X"] ∧
      lex (exprChars t) = some [.fixed "--", .var "X"] := by
  intro minus e
  have hwhole := Represents.unary .nil minus (.unary .nil minus (.var .nil "X"))
  have hchars : e.text = "--X".toList := by decide +kernel +zetaReduce
  have hname : isVariableName "X" = true := by decide
  have hsign : "-" ∈ signs := by decide
  have hlex := lex_doubled hsign ("X".toList ++ [])
  rw [lex_var hname stops_nil, lex_nil] at hlex
  refine ⟨_, hwhole, (exprChars_eq hwhole).trans hchars, by decide +kernel +zetaReduce, ?_⟩
  rw [exprChars_eq hwhole]
  exact (congrArg lex hchars).trans hlex

end BeamScope.AbstractCode
