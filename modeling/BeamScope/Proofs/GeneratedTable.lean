import BeamScope.InstructionSet.Generated
import BeamScope.Proofs.ClassificationChecks
import BeamScope.Proofs.Drawing
import BeamScope.Proofs.Numerals

/-!
# What a generated table says

A generated text is read back: two constants, the length of an array and its entries, in which the
quoting is undone. What is read is the table that was written, with all that an entry has. So a text
is generated exactly for a classification that fits, and holds what the classification says.
-/

namespace BeamScope.InstructionSet

open Text

/-! ### Reading -/

abbrev Reader (α : Type) := List Char → Option (α × List Char)

/-- Values one after another, as long as there is one, and at most `fuel` of them. -/
def many {α : Type} (r : Reader α) : (fuel : Nat) → List Char → List α × List Char
  | 0, cs => ([], cs)
  | fuel + 1, cs =>
    match r cs with
    | none => ([], cs)
    | some (a, rest) => (a :: (many r fuel rest).1, (many r fuel rest).2)

def shortEscape? (c : Char) : Option Char :=
  if c = '0' then some '\x00'
  else if c = 't' then some '\t'
  else if c = 'r' then some '\r'
  else if c = 'n' then some '\n'
  else if c = '"' then some '"'
  else if c = '\\' then some '\\'
  else none

/-- What is meant by the text behind a backslash. -/
def readEscape : Reader Char
  | [] => none
  | c :: rest =>
    if c = 'u' then do
      let rest ← after? ['\x7b'] rest
      let (digits, rest) ← splitOnce? '\x7d' rest
      let n ← natOfDigits? 16 0 digits
      return (Char.ofNat n, rest)
    else (shortEscape? c).map (·, rest)

/-- One character of a quoted text; none at the closing quote. -/
def readChar : Reader Char
  | [] => none
  | c :: rest =>
    if c = '"' then none
    else if c = '\\' then readEscape rest
    else some (c, rest)

def readText : Reader String := fun cs => do
  let rest ← after? ['"'] cs
  let (chars, rest) := many readChar rest.length rest
  let rest ← after? ['"'] rest
  return (String.ofList chars, rest)

def readOptional {α : Type} (r : Reader α) : Reader (Option α) := fun cs =>
  match after? "None".toList cs with
  | some rest => some (none, rest)
  | none => do
    let rest ← after? "Some(".toList cs
    let (a, rest) ← r rest
    let rest ← after? [')'] rest
    return (some a, rest)

/-- Digits up to a character that is none. -/
def readNat (stop : Char) : Reader Nat := fun cs => do
  let (digits, rest) ← splitOnce? stop cs
  let n ← natOfDigits? 10 0 digits
  return (n, stop :: rest)

def readCategory : Reader Category := fun cs => do
  let (name, rest) ← splitOnce? ',' cs
  let c ← Category.all.find? fun c => (categoryConstructor c).toList == name
  return (c, ',' :: rest)

def readFlag : Reader Flag := fun cs => do
  let rest ← after? ".union(OpcodeFlags::".toList cs
  let (name, rest) ← splitOnce? ')' rest
  let f ← Flag.all.find? fun f => (flagConstant f).toList == name
  return (f, rest)

def readFlags : Reader (List Flag) := fun cs => some (many readFlag cs.length cs)

def readNextText : Reader String := fun cs => (after? [',', ' '] cs).bind readText

/-- Texts with commas between them, up to a bracket. -/
def readTexts : Reader (List String) := fun cs =>
  match readText cs with
  | none => (after? [']'] cs).map ([], ·)
  | some (first, rest) => do
    let (others, rest) := many readNextText rest.length rest
    let rest ← after? [']'] rest
    return (first :: others, rest)

def lineChars (line : String) : List Char := line.toList ++ ['\n']

/-- A line with a label and a value. -/
def readField {α : Type} (label : String) (r : Reader α) : Reader α := fun cs => do
  let rest ← after? label.toList cs
  let (a, rest) ← r rest
  let rest ← after? [',', '\n'] rest
  return (a, rest)

def readEntry : Reader (Option Slot) := fun cs =>
  match after? (lineChars "    None,") cs with
  | some rest => some (none, rest)
  | none => do
    let rest ← after? (lineChars "    Some(OpcodeInfo \x7b") cs
    let (id, rest) ← readField "        id: " (readNat ',') rest
    let (name, rest) ← readField "        mnemonic: " readText rest
    let (arity, rest) ← readField "        arity: " (readNat ',') rest
    let (category, rest) ← readField "        category: Category::" readCategory rest
    let (flags, rest) ← readField "        flags: OpcodeFlags::empty()" readFlags rest
    let (position, rest) ← readField "        import_operand: " (readOptional (readNat ')')) rest
    let (doc, rest) ← readField "        doc: " (readOptional readText) rest
    let (names, rest) ← readField "        operand_names: &[" readTexts rest
    let rest ← after? (lineChars "    \x7d),") rest
    let d : Definition := ⟨id, name, arity, flags.contains .deprecated, doc, names⟩
    return (some ⟨d, category, flags, position⟩, rest)

def tableHead : List String :=
  ["// @generated by build.rs from isa/genop.tab and isa/categories.yaml", "",
    "/// `BEAM_FORMAT_NUMBER` declared by the instruction set."]

structure TableText where
  formatNumber : Nat
  maxOpcode : Nat
  /-- The length with which the array is declared. -/
  length : Nat
  entries : List (Option Slot)

def readTable (cs : List Char) : Option TableText := do
  let rest ← after? (tableHead.flatMap lineChars) cs
  let rest ← after? "pub const FORMAT_NUMBER: u32 = ".toList rest
  let (formatNumber, rest) ← readNat ';' rest
  let rest ← after? ([";", "", "/// Highest opcode id known to this build."].flatMap lineChars) rest
  let rest ← after? "pub const MAX_OPCODE: u8 = ".toList rest
  let (maxOpcode, rest) ← readNat ';' rest
  let rest ← after? ([";", ""].flatMap lineChars) rest
  let rest ← after? "static OPCODES: [Option<OpcodeInfo>; ".toList rest
  let (length, rest) ← readNat ']' rest
  let rest ← after? (lineChars "] = [") rest
  let (entries, rest) := many readEntry rest.length rest
  if rest = lineChars "];" then return ⟨formatNumber, maxOpcode, length, entries⟩ else none

/-! ### Reading back -/

section Reading

variable {α : Type}

theorem many_of_length_le {r : Reader α} {text : α → List Char} {as : List α} {rest : List Char}
    (h : ∀ a ∈ as, ∀ more, r (text a ++ more) = some (a, more)) (hstop : r rest = none)
    {fuel : Nat} (hfuel : as.length ≤ fuel) : many r fuel (as.flatMap text ++ rest) = (as, rest) := by
  induction as generalizing fuel with
  | nil =>
    cases fuel with
    | zero => rfl
    | succ fuel =>
      rw [List.flatMap_nil, List.nil_append, many, hstop]
  | cons a as ih =>
    rw [List.forall_mem_cons] at h
    cases fuel with
    | zero => simp at hfuel
    | succ fuel =>
      have hrest := ih h.2 (Nat.le_of_succ_le_succ hfuel)
      rw [List.flatMap_cons, List.append_assoc, many, h.1]
      simp only [hrest]

/-- A value has a text, or reading would go on behind the last. -/
theorem length_le_flatMap {r : Reader α} {text : α → List Char} {as : List α} {rest : List Char}
    (h : ∀ a ∈ as, ∀ more, r (text a ++ more) = some (a, more)) (hstop : r rest = none) :
    as.length ≤ (as.flatMap text).length := by
  induction as with
  | nil => exact Nat.le_refl _
  | cons a as ih =>
    rw [List.forall_mem_cons] at h
    have hlen := ih h.2
    have hpos : 0 < (text a).length := by
      apply List.length_pos_iff.mpr
      intro hnil
      have hread := h.1 rest
      rw [hnil, List.nil_append, hstop] at hread
      cases hread
    rw [List.flatMap_cons, List.length_append, List.length_cons]
    omega

theorem many_flatMap {r : Reader α} {text : α → List Char} {as : List α} {rest : List Char}
    (h : ∀ a ∈ as, ∀ more, r (text a ++ more) = some (a, more)) (hstop : r rest = none) :
    many r (as.flatMap text ++ rest).length (as.flatMap text ++ rest) = (as, rest) := by
  apply many_of_length_le h hstop
  have hlen := length_le_flatMap h hstop
  rw [List.length_append]
  omega

theorem splitOnce?_append {stop : Char} {cs : List Char} (h : stop ∉ cs) (rest : List Char) :
    splitOnce? stop (cs ++ stop :: rest) = some (cs, rest) := by
  induction cs with
  | nil => simp [splitOnce?]
  | cons c cs ih =>
    rw [List.mem_cons, not_or] at h
    rw [List.cons_append, splitOnce?, if_neg (Ne.symm h.1), ih h.2]
    rfl

theorem not_mem_toDigits {base n : Nat} {stop : Char} (hone : 1 < base) (hbase : base ≤ 16)
    (hstop : digit? base stop = none) : stop ∉ Nat.toDigits base n := by
  intro hmem
  exact digit?_of_mem (natOfDigits?_toDigits_base hone hbase n) stop hmem hstop

theorem readNat_toDigits {stop : Char} (hstop : digit? 10 stop = none) (n : Nat)
    (rest : List Char) :
    readNat stop (Nat.toDigits 10 n ++ stop :: rest) = some (n, stop :: rest) := by
  have hdigits : stop ∉ Nat.toDigits 10 n := not_mem_toDigits (by decide) (by decide) hstop
  rw [readNat, splitOnce?_append hdigits]
  simp only [Option.bind_eq_bind, Option.bind_some, natOfDigits?_toDigits]
  rfl

end Reading

/-! ### Values -/

theorem readEscape_codePoint (c : Char) (rest : List Char) :
    readEscape ('u' :: '\x7b' :: (hexDigits c.toNat ++ '\x7d' :: rest)) = some (c, rest) := by
  have hdigits : '\x7d' ∉ hexDigits c.toNat :=
    not_mem_toDigits (by decide) (by decide) (by decide)
  have hvalue : natOfDigits? 16 0 (hexDigits c.toNat) = some c.toNat :=
    natOfDigits?_toDigits_base (by decide) (by decide) c.toNat
  rw [readEscape, if_pos rfl]
  simp only [after?, if_true, Option.bind_eq_bind, Option.bind_some, splitOnce?_append hdigits, hvalue,
    Char.ofNat_toNat]
  rfl

theorem readChar_codePoint (c : Char) (rest : List Char) :
    readChar (codePointEscape c ++ rest) = some (c, rest) := by
  have htext : codePointEscape c ++ rest =
      '\\' :: 'u' :: '\x7b' :: (hexDigits c.toNat ++ '\x7d' :: rest) := by simp [codePointEscape]
  rw [htext, readChar, if_neg (by decide), if_pos rfl, readEscape_codePoint]

theorem readChar_quotedChar (c : Char) (rest : List Char) :
    readChar (quotedChar c ++ rest) = some (c, rest) := by
  unfold quotedChar
  split_ifs with hnul htab hreturn hfeed hquote hback
  · subst c; rfl
  · subst c; rfl
  · subst c; rfl
  · subst c; rfl
  · subst c; rfl
  · subst c; rfl
  · exact readChar_codePoint c rest
  · exact readChar_codePoint c rest
  · rw [List.singleton_append, readChar, if_neg hquote, if_neg hback]

theorem readText_quoted (s : String) (rest : List Char) :
    readText ((quoted s).toList ++ rest) = some (s, rest) := by
  have htext : (quoted s).toList ++ rest =
      '"' :: (s.toList.flatMap quotedChar ++ '"' :: rest) := by simp [quoted]
  have hchars : many readChar (s.toList.flatMap quotedChar ++ '"' :: rest).length
      (s.toList.flatMap quotedChar ++ '"' :: rest) = (s.toList, '"' :: rest) :=
    many_flatMap (fun c _ more => readChar_quotedChar c more) rfl
  rw [htext, readText]
  simp only [after?, if_true, Option.bind_eq_bind, Option.bind_some, hchars, String.ofList_toList]
  rfl

theorem readOptional_text {α : Type} {r : Reader α} {text : α → String}
    (h : ∀ a rest, r ((text a).toList ++ ')' :: rest) = some (a, ')' :: rest)) (o : Option α)
    (rest : List Char) :
    readOptional r ((optionText (o.map text)).toList ++ rest) = some (o, rest) := by
  cases o with
  | none =>
    have hnone : after? "None".toList ("None".toList ++ rest) = some rest := after?_append _ _
    rw [Option.map_none, optionText, readOptional, hnone]
  | some a =>
    have htext : (optionText (some (text a))).toList ++ rest =
        "Some(".toList ++ ((text a).toList ++ ')' :: rest) := by
      simp [optionText, toString]
    have hnot : ∀ cs, after? "None".toList ("Some(".toList ++ cs) = none := fun cs => rfl
    rw [Option.map_some, htext, readOptional, hnot]
    simp only [after?_append, Option.bind_eq_bind, Option.bind_some, h]
    rfl

theorem readCategory_text (c : Category) (rest : List Char) :
    readCategory ((categoryConstructor c).toList ++ ',' :: rest) = some (c, ',' :: rest) := by
  have hname : ',' ∉ (categoryConstructor c).toList := by cases c <;> decide
  have hfind : (Category.all.find? fun o =>
      (categoryConstructor o).toList == (categoryConstructor c).toList) = some c := by
    cases c <;> decide
  rw [readCategory, splitOnce?_append hname]
  simp only [Option.bind_eq_bind, Option.bind_some, hfind]
  rfl

def flagChars (f : Flag) : List Char := (".union(OpcodeFlags::" ++ flagConstant f ++ ")").toList

theorem readFlag_text (f : Flag) (rest : List Char) :
    readFlag (flagChars f ++ rest) = some (f, rest) := by
  have hname : ')' ∉ (flagConstant f).toList := by cases f <;> decide
  have hfind : (Flag.all.find? fun o =>
      (flagConstant o).toList == (flagConstant f).toList) = some f := by
    cases f <;> decide
  have htext : flagChars f ++ rest =
      ".union(OpcodeFlags::".toList ++ ((flagConstant f).toList ++ ')' :: rest) := by
    simp [flagChars]
  rw [htext, readFlag]
  simp only [after?_append, Option.bind_eq_bind, Option.bind_some,
    splitOnce?_append hname, hfind]
  rfl

theorem readFlags_text (flags : List Flag) (rest : List Char) :
    readFlags (flags.flatMap flagChars ++ ',' :: rest) = some (flags, ',' :: rest) := by
  have hstop : readFlag (',' :: rest) = none := rfl
  rw [readFlags, many_flatMap (fun f _ more => readFlag_text f more) hstop]

theorem toList_intercalate_cons (first : String) (others : List String) :
    (", ".intercalate (first :: others)).toList =
      first.toList ++ others.flatMap fun s => [',', ' '] ++ s.toList := by
  rw [String.toList_intercalate]
  induction others generalizing first with
  | nil => simp [List.intercalate]
  | cons second others ih =>
    rw [List.map_cons, List.map_cons, List.intercalate_cons_cons, ← List.map_cons, ih]
    simp

theorem readTexts_text (names : List String) (rest : List Char) :
    readTexts ((", ".intercalate (names.map quoted)).toList ++ ']' :: rest) = some (names, rest) := by
  cases names with
  | nil => rfl
  | cons first others =>
    have hothers : ∀ name ∈ others, ∀ more,
        readNextText (([',', ' '] ++ (quoted name).toList) ++ more) = some (name, more) := by
      intro name _ more
      rw [readNextText, List.append_assoc, after?_append, Option.bind_some, readText_quoted]
    have hstop : readNextText (']' :: rest) = none := rfl
    rw [List.map_cons, toList_intercalate_cons, List.flatMap_map, List.append_assoc, readTexts,
      readText_quoted]
    simp only [many_flatMap hothers hstop]
    rfl

def fieldChars (label : String) (text : List Char) : List Char :=
  label.toList ++ (text ++ [',', '\n'])

theorem lineChars_field (label text : String) :
    lineChars (label ++ text ++ ",") = fieldChars label text.toList := by
  simp [lineChars, fieldChars]

theorem readField_text {α : Type} {label : String} {r : Reader α} {text : List Char} {a : α}
    (h : ∀ rest, r (text ++ ',' :: rest) = some (a, ',' :: rest)) (rest : List Char) :
    readField label r (fieldChars label text ++ rest) = some (a, rest) := by
  have htext : fieldChars label text ++ rest =
      label.toList ++ (text ++ ',' :: '\n' :: rest) := by simp [fieldChars]
  rw [htext, readField]
  simp only [after?_append, Option.bind_eq_bind, Option.bind_some, h]
  rfl

/-! ### Entries -/

def entryChars (e : Option Slot) : List Char := (slotLines e).flatMap lineChars

/-- The text of an entry, line by line. -/
theorem entryChars_some (s : Slot) :
    entryChars (some s) = [
      lineChars "    Some(OpcodeInfo \x7b",
      fieldChars "        id: " (Nat.toDigits 10 s.definition.id),
      fieldChars "        mnemonic: " (quoted s.definition.name).toList,
      fieldChars "        arity: " (Nat.toDigits 10 s.definition.arity),
      fieldChars "        category: Category::" (categoryConstructor s.category).toList,
      fieldChars "        flags: OpcodeFlags::empty()" (s.flags.flatMap flagChars),
      fieldChars "        import_operand: " (optionText (s.importOperand.map Nat.repr)).toList,
      fieldChars "        doc: " (optionText (s.definition.doc.map quoted)).toList,
      fieldChars "        operand_names: &["
        ((", ".intercalate (s.definition.operandNames.map quoted)).toList ++ [']']),
      lineChars "    \x7d),"].flatten := by
  have hnumber : ∀ (label : String) (n : Nat),
      lineChars (label ++ n.repr ++ ",") = fieldChars label (Nat.toDigits 10 n) := by
    intro label n
    rw [lineChars_field, Nat.toList_repr]
  have hflags : ∀ label : String,
      lineChars (label ++ String.join (s.flags.map fun f =>
        ".union(OpcodeFlags::" ++ flagConstant f ++ ")") ++ ",") =
      fieldChars label (s.flags.flatMap flagChars) := by
    intro label
    rw [lineChars_field, String.toList_join, List.flatMap_map]
    rfl
  have hnames : ∀ label names : String,
      lineChars (label ++ names ++ "],") = fieldChars label (names.toList ++ [']']) := by
    intro label names
    simp [lineChars, fieldChars]
  simp only [entryChars, slotLines, toString, List.flatMap_cons, List.flatMap_nil, List.flatten_cons,
    List.flatten_nil, hnumber, hflags, hnames, lineChars_field]

theorem readEntry_none (rest : List Char) :
    readEntry (entryChars none ++ rest) = some (none, rest) := by
  have htext : entryChars none = lineChars "    None," := List.append_nil _
  rw [htext, readEntry, after?_append]

theorem readEntry_some {s : Slot} (hflags : s.flags.contains .deprecated = s.definition.deprecated)
    (rest : List Char) : readEntry (entryChars (some s) ++ rest) = some (some s, rest) := by
  have hnot : ∀ cs, after? (lineChars "    None,") (lineChars "    Some(OpcodeInfo \x7b" ++ cs) =
      none := fun cs => rfl
  have hnumber : ∀ n more, readNat ',' (Nat.toDigits 10 n ++ ',' :: more) = some (n, ',' :: more) :=
    readNat_toDigits (by decide)
  have hposition : ∀ o more, readOptional (readNat ')')
      ((optionText (o.map Nat.repr)).toList ++ more) = some (o, more) := by
    apply readOptional_text
    intro n more
    rw [Nat.toList_repr]
    exact readNat_toDigits (by decide) n more
  have hdoc : ∀ o more, readOptional readText
      ((optionText (o.map quoted)).toList ++ more) = some (o, more) :=
    readOptional_text fun s more => readText_quoted s _
  have hnames : ∀ (names : List String) (more : List Char), readTexts
      (((", ".intercalate (names.map quoted)).toList ++ [']']) ++ more) = some (names, more) := by
    intro names more
    rw [List.append_assoc]
    exact readTexts_text names more
  rw [entryChars_some]
  simp only [List.flatten_cons, List.flatten_nil, List.append_nil, List.append_assoc]
  rw [readEntry, hnot]
  simp only [after?_append, Option.bind_eq_bind, Option.bind_some, readField_text (hnumber _),
    readField_text fun more => readText_quoted _ (',' :: more),
    readField_text (readCategory_text _), readField_text (readFlags_text _),
    readField_text fun more => hposition _ (',' :: more),
    readField_text fun more => hdoc _ (',' :: more),
    readField_text fun more => hnames _ (',' :: more)]
  rw [hflags]
  rfl

/-! ### Tables -/

/-- The text of a table, cut where it is read. -/
theorem toList_tableLines (ds : Definitions) (slots : List (Option Slot)) :
    (String.join ((tableLines ds slots).map (· ++ "\n"))).toList = [
      tableHead.flatMap lineChars,
      "pub const FORMAT_NUMBER: u32 = ".toList, Nat.toDigits 10 ds.formatNumber,
      [";", "", "/// Highest opcode id known to this build."].flatMap lineChars,
      "pub const MAX_OPCODE: u8 = ".toList, Nat.toDigits 10 ds.maxId,
      [";", ""].flatMap lineChars,
      "static OPCODES: [Option<OpcodeInfo>; ".toList, Nat.toDigits 10 (ds.maxId + 1),
      lineChars "] = [", slots.flatMap entryChars, lineChars "];"].flatten := by
  have hlines : ∀ lines : List String,
      (String.join (lines.map (· ++ "\n"))).toList = lines.flatMap lineChars := by
    intro lines
    rw [String.toList_join, List.flatMap_map]
    simp only [String.toList_append]
    rfl
  have hnumber : ∀ (label : String) (n : Nat) (tail : String),
      lineChars (label ++ n.repr ++ tail) =
        label.toList ++ (Nat.toDigits 10 n ++ lineChars tail) := by
    intro label n tail
    simp [lineChars, Nat.toList_repr]
  have hentries : (slots.flatMap slotLines).flatMap lineChars = slots.flatMap entryChars :=
    List.flatMap_assoc
  rw [hlines]
  simp only [tableLines, tableHead, toString, List.flatMap_append, List.flatMap_cons,
    List.flatMap_nil, List.flatten_cons, List.flatten_nil, List.append_nil, List.append_assoc,
    hnumber, hentries]

theorem readTable_tableLines {ds : Definitions} {slots : List (Option Slot)}
    (h : ∀ s, some s ∈ slots → s.flags.contains .deprecated = s.definition.deprecated) :
    readTable (String.join ((tableLines ds slots).map (· ++ "\n"))).toList =
      some ⟨ds.formatNumber, ds.maxId, ds.maxId + 1, slots⟩ := by
  have hnumber : ∀ (n : Nat) (lines : List String) (more : List Char),
      readNat ';' (Nat.toDigits 10 n ++ ((";" :: lines).flatMap lineChars ++ more)) =
        some (n, (";" :: lines).flatMap lineChars ++ more) := fun n _ _ =>
    readNat_toDigits (by decide) n _
  have hlength : ∀ (n : Nat) (more : List Char),
      readNat ']' (Nat.toDigits 10 n ++ (lineChars "] = [" ++ more)) =
        some (n, lineChars "] = [" ++ more) := fun n _ =>
    readNat_toDigits (by decide) n _
  have hentries : ∀ e ∈ slots, ∀ more, readEntry (entryChars e ++ more) = some (e, more) := by
    intro e he more
    cases e with
    | none => exact readEntry_none more
    | some s => exact readEntry_some (h s he) more
  have hstop : readEntry (lineChars "];") = none := rfl
  rw [toList_tableLines]
  simp only [List.flatten_cons, List.flatten_nil, List.append_nil]
  rw [readTable]
  simp only [after?_append, Option.bind_eq_bind, Option.bind_some, hnumber, hlength,
    many_flatMap hentries hstop, if_true]
  rfl

/-! ### Generated texts -/

section Generate

variable {source text : String} {ds : Definitions} {cl : Classification}

/-- Only a withdrawn definition has this flag: a classification cannot give it. -/
theorem contains_deprecated (cl : Classification) (d : Definition) :
    (cl.slotOf d).flags.contains .deprecated = d.deprecated := by
  rw [Bool.eq_iff_iff, List.contains_iff_mem, mem_flags_slotOf, mem_flagsOf]
  constructor
  · rintro (⟨hd, -⟩ | ⟨p, -, ⟨hcall, -⟩, -⟩ | ⟨-, hmarker⟩)
    · exact hd
    · simp [callFlags] at hcall
    · cases hmarker
  · intro hd
    exact .inl ⟨hd, rfl⟩

theorem generate_eq_ok (hparse : parse source = .ok ds) :
    generate source cl = .ok text ↔
      ∃ slots, table ds cl = .ok slots ∧
        text = String.join ((tableLines ds slots).map (· ++ "\n")) := by
  have hgenerate : generate source cl = (table ds cl).mapError GenerateFault.classification >>=
      fun slots => .ok (String.join ((tableLines ds slots).map (· ++ "\n"))) := by
    rw [generate, hparse]
    rfl
  rw [hgenerate]
  cases table ds cl with
  | error e =>
    simp only [reduceCtorEq, false_and, exists_false, iff_false]
    nofun
  | ok slots =>
    simp only [Except.ok.injEq, exists_eq_left']
    constructor
    · rintro ⟨⟩
      rfl
    · rintro rfl
      rfl

/-- A table that has all there is to say: one entry for each number up to the greatest. -/
structure Tabulates (ds : Definitions) (cl : Classification) (t : TableText) : Prop where
  formatNumber : t.formatNumber = ds.formatNumber
  maxOpcode : t.maxOpcode = (ds.defs.map Definition.id).max?.getD 0
  declared : t.length = t.maxOpcode + 1
  length : t.entries.length = t.maxOpcode + 1
  entries : ∀ id e, t.entries[id]? = some e → IsEntry ds cl id e

theorem Consistent.tabulates (h : Consistent ds cl) (hds : ds.WellFormed)
    (hkeys : (cl.importOperands.map Prod.fst).Nodup) (hparse : parse source = .ok ds)
    (htext : generate source cl = .ok text) :
    ∃ t, readTable text.toList = some t ∧ Tabulates ds cl t := by
  obtain ⟨slots, htable, rfl⟩ := (generate_eq_ok hparse).mp htext
  obtain ⟨-, rfl⟩ := (table_eq_ok hds hkeys).mp htable
  refine ⟨_, readTable_tableLines ?_, rfl, maxId_eq ds, rfl, ?_, ?_⟩
  · intro s hs
    obtain ⟨id, -, hid⟩ := List.mem_map.mp hs
    obtain ⟨d, -, rfl⟩ := Option.map_eq_some_iff.mp hid
    exact contains_deprecated cl d
  · rw [List.length_map, List.length_range]
  · intro id e he
    rw [List.getElem?_map, Option.map_eq_some_iff] at he
    obtain ⟨n, hn, rfl⟩ := he
    obtain ⟨hid, rfl⟩ := List.getElem?_eq_some_iff.mp hn
    rw [List.getElem_range]
    exact h.isEntry hds hkeys id

/-- Where no name is given two positions, a text is generated exactly if the classification fits the
definitions, and what is read in it is a table of all that the two say. -/
theorem generate_ok_iff_consistent (hparse : parse source = .ok ds)
    (hkeys : (cl.importOperands.map Prod.fst).Nodup) :
    ((∃ text, generate source cl = .ok text) ↔ Consistent ds cl) ∧
      ∀ text, generate source cl = .ok text →
        ∃ t, readTable text.toList = some t ∧ Tabulates ds cl t := by
  have hds := wellFormed_of_parse hparse
  have hconsistent : (∃ text, generate source cl = .ok text) ↔ Consistent ds cl := by
    simp only [generate_eq_ok hparse, table_eq_ok hds hkeys]
    constructor
    · rintro ⟨-, -, ⟨h, -⟩, -⟩
      exact h
    · intro h
      exact ⟨_, _, ⟨h, rfl⟩, rfl⟩
  refine ⟨hconsistent, ?_⟩
  intro text htext
  have h := hconsistent.mp ⟨text, htext⟩
  exact h.tabulates hds hkeys hparse htext

-- A call with an import index, a withdrawn instruction without a category, a line marker and two
-- numbers without a definition; and the import index moved behind the last operand.
theorem generate_ok_iff_consistent_calls :
    let source := "BEAM_FORMAT_NUMBER=2\n## @doc Calls.\n1: call_ext/2\n3: -put/1\n4: line/1"
    let calls := fun position : Nat => (⟨[("call", ["call_ext"]), ("meta", ["line"])],
      [("external_call", ["call_ext"])], ["line"], [("call_ext", position)]⟩ : Classification)
    (∃ text t, generate source (calls 1) = .ok text ∧ readTable text.toList = some t ∧
      t.entries.length = 5) ∧
    ¬ ∃ text, generate source (calls 2) = .ok text := by
  intro source calls
  have hparse : parse source = .ok ⟨2, [⟨1, "call_ext", 2, false, some "Calls.", []⟩,
      ⟨3, "put", 1, true, none, []⟩, ⟨4, "line", 1, false, none, []⟩]⟩ := by decide +kernel
  have hkeys : ∀ position, ((calls position).importOperands.map Prod.fst).Nodup := fun _ =>
    List.nodup_singleton _
  constructor
  · obtain ⟨hok, hread⟩ := generate_ok_iff_consistent hparse (hkeys 1)
    obtain ⟨text, htext⟩ := hok.mpr {
      categoryKeys := List.forall_mem_cons.mpr ⟨⟨.call, by decide⟩,
        List.forall_mem_singleton.mpr ⟨.metadata, by decide⟩⟩
      shapeKeys := List.forall_mem_singleton.mpr ⟨.externalCall, by decide⟩
      categoryNames := by simp [calls, Definitions.Defines]
      shapeNames := by simp [calls, Definitions.Defines]
      markerNames := by simp [calls, Definitions.Defines]
      importNames := by simp [calls, Definitions.Defines]
      once := by decide
      complete := by decide
      positions := by decide }
    obtain ⟨t, ht, htable⟩ := hread text htext
    refine ⟨text, t, htext, ht, ?_⟩
    rw [htable.length, htable.maxOpcode]
    rfl
  · intro htext
    have hpositions := ((generate_ok_iff_consistent hparse (hkeys 2)).1.mp htext).positions
    have hlt := hpositions _ (List.mem_singleton_self _) _ (List.mem_cons_self ..) rfl
    exact absurd hlt (by decide)

end Generate

end BeamScope.InstructionSet
