import BeamScope.CallGraph.Dot
import BeamScope.Proofs.CallGraphExact

/-!
# What a drawing shows

A drawing is read back statement by statement: which graph it names, which functions it draws in
which shape, and which calls. Reading undoes the quoting, so no name of a function can pass for
another statement.

The shape of a function is decided by the beginning of its identifier: the name of a module, a dot
and the name of a function. Names may hold dots themselves, so the name of a module with a dot behind
it can begin the identifier of a function of another module. That one is a box, too.
-/

namespace BeamScope

theorem Text.after?_append (start cs : List Char) : Text.after? start (start ++ cs) = some cs := by
  induction start with
  | nil => rfl
  | cons c start ih => simp [Text.after?, ih]

theorem Text.isSome_after? {start cs : List Char} :
    (Text.after? start cs).isSome = true ↔ start <+: cs := by
  fun_induction Text.after? start cs with
  | case1 cs => simp
  | case2 s start => simp
  | case3 start c cs ih => simp [ih]
  | case4 s start c cs hne => simp [hne]

namespace CallGraph

/-! ### Reading -/

/-- The text up to the quote that ends it, and what follows. A backslash stands before a character
that is meant as it is. -/
def unquote : List Char → Option (List Char × List Char)
  | [] => none
  | '"' :: rest => some ([], rest)
  | '\\' :: c :: rest => (unquote rest).map fun (s, more) => (c :: s, more)
  | c :: rest => (unquote rest).map fun (s, more) => (c :: s, more)

def readQuoted (cs : List Char) : Option (String × List Char) := do
  let rest ← Text.after? ['"'] cs
  let (s, rest) ← unquote rest
  return (String.ofList s, rest)

inductive Shape where
  | box
  | ellipse
  deriving Repr, DecidableEq

def Shape.name : Shape → String
  | box => "box"
  | ellipse => "ellipse"

inductive Statement where
  | node (id : String) (shape : Shape)
  | edge (caller callee : String)
  deriving Repr, DecidableEq

def readShape (cs : List Char) : Option (Shape × List Char) :=
  ((Text.after? Shape.box.name.toList cs).map (Shape.box, ·)).or
    ((Text.after? Shape.ellipse.name.toList cs).map (Shape.ellipse, ·))

def readStatement (cs : List Char) : Option (Statement × List Char) := do
  let rest ← Text.after? "    ".toList cs
  let (id, rest) ← readQuoted rest
  match Text.after? " [shape=".toList rest with
  | some rest =>
    let (shape, rest) ← readShape rest
    let rest ← Text.after? "];\n".toList rest
    return (.node id shape, rest)
  | none =>
    let rest ← Text.after? " -> ".toList rest
    let (callee, rest) ← readQuoted rest
    let rest ← Text.after? ";\n".toList rest
    return (.edge id callee, rest)

/-- Statements up to the closing brace, at most `fuel` of them. -/
def readStatements : (fuel : Nat) → List Char → Option (List Statement)
  | 0, cs => if cs = "\x7d\n".toList then some [] else none
  | fuel + 1, cs =>
    if cs = "\x7d\n".toList then some []
    else do
      let (s, rest) ← readStatement cs
      let ss ← readStatements fuel rest
      return s :: ss

/-- The name of a drawing and its statements. -/
def readDrawing (cs : List Char) : Option (String × List Statement) := do
  let rest ← Text.after? "digraph ".toList cs
  let (module, rest) ← readQuoted rest
  let rest ← Text.after? " \x7b\n".toList rest
  let ss ← readStatements rest.length rest
  return (module, ss)

/-! ### Reading back -/

theorem unquote_escape (s rest : List Char) :
    unquote (Format.escape s ++ '"' :: rest) = some (s, rest) := by
  induction s with
  | nil => rfl
  | cons c s ih =>
    have hcons : Format.escape (c :: s) = Format.escapeChar c ++ Format.escape s := rfl
    rw [hcons, List.append_assoc]
    by_cases hback : c = '\\'
    · subst hback
      simp [Format.escapeChar, unquote, ih]
    · by_cases hquote : c = '"'
      · subst hquote
        simp [Format.escapeChar, unquote, ih]
      · simp [Format.escapeChar, hback, hquote, unquote, ih]

theorem readQuoted_quoteChars (id : String) (rest : List Char) :
    readQuoted (quoteChars id ++ rest) = some (id, rest) := by
  have hquoted : quoteChars id ++ rest = ['"'] ++ (Format.escape id.toList ++ '"' :: rest) := by
    simp [quoteChars]
  rw [hquoted, readQuoted, Text.after?_append]
  simp only [Option.bind_eq_bind, Option.bind_some, unquote_escape, String.ofList_toList]
  rfl

theorem readShape_name (shape : Shape) (rest : List Char) :
    readShape (shape.name.toList ++ rest) = some (shape, rest) := by
  cases shape <;> rfl

def Statement.chars : Statement → List Char
  | .node id shape =>
    "    ".toList ++ quoteChars id ++ " [shape=".toList ++ shape.name.toList ++ "];\n".toList
  | .edge caller callee => edgeLine (caller, callee)

theorem chars_node (id : String) (shape : Shape) (rest : List Char) :
    (Statement.node id shape).chars ++ rest = "    ".toList ++ (quoteChars id ++
      (" [shape=".toList ++ (shape.name.toList ++ ("];\n".toList ++ rest)))) := by
  change "    ".toList ++ quoteChars id ++ " [shape=".toList ++ shape.name.toList ++
    "];\n".toList ++ rest = _
  simp only [List.append_assoc]

theorem chars_edge (caller callee : String) (rest : List Char) :
    (Statement.edge caller callee).chars ++ rest = "    ".toList ++ (quoteChars caller ++
      (" -> ".toList ++ (quoteChars callee ++ (";\n".toList ++ rest)))) := by
  change "    ".toList ++ quoteChars caller ++ " -> ".toList ++ quoteChars callee ++
    ";\n".toList ++ rest = _
  simp only [List.append_assoc]

theorem readStatement_chars (s : Statement) (rest : List Char) :
    readStatement (s.chars ++ rest) = some (s, rest) := by
  cases s with
  | node id shape =>
    rw [chars_node]
    simp only [readStatement, Text.after?_append, Option.bind_eq_bind, Option.bind_some,
      readQuoted_quoteChars, readShape_name]
    rfl
  | edge caller callee =>
    have harrow (cs : List Char) : Text.after? " [shape=".toList (" -> ".toList ++ cs) = none := rfl
    rw [chars_edge]
    simp only [readStatement, Text.after?_append, Option.bind_eq_bind, Option.bind_some,
      readQuoted_quoteChars, harrow]
    rfl

theorem readStatements_chars (ss : List Statement) {fuel : Nat} (hfuel : ss.length ≤ fuel) :
    readStatements fuel (ss.flatMap Statement.chars ++ "\x7d\n".toList) = some ss := by
  induction ss generalizing fuel with
  | nil => cases fuel <;> rfl
  | cons s ss ih =>
    cases fuel with
    | zero => simp at hfuel
    | succ fuel =>
      have hread := readStatement_chars s (ss.flatMap Statement.chars ++ "\x7d\n".toList)
      have hopen : s.chars ++ (ss.flatMap Statement.chars ++ "\x7d\n".toList) ≠
          "\x7d\n".toList := by
        intro hclose
        rw [hclose] at hread
        cases hread
      rw [List.flatMap_cons, List.append_assoc, readStatements, if_neg hopen, hread]
      simp only [Option.bind_eq_bind, Option.bind_some, ih (Nat.le_of_succ_le_succ hfuel)]
      rfl

theorem length_le_chars (ss : List Statement) :
    ss.length ≤ (ss.flatMap Statement.chars).length := by
  induction ss with
  | nil => exact Nat.le_refl _
  | cons s ss ih =>
    have hs : 1 ≤ s.chars.length := by
      have hchars : s.chars ≠ [] := by
        intro hnil
        have hread := readStatement_chars s []
        rw [hnil] at hread
        cases hread
      exact List.length_pos_iff.mpr hchars
    rw [List.flatMap_cons, List.length_append, List.length_cons]
    omega

def shapeOf (module id : String) : Shape := if isLocal module id then .box else .ellipse

/-- What a graph is drawn as under the name of a module. -/
def statements (module : String) (g : CallGraph) : List Statement :=
  g.nodes.map (fun id => .node id (shapeOf module id)) ++ g.edges.map fun e => .edge e.1 e.2

theorem chars_shapeOf (module id : String) :
    (Statement.node id (shapeOf module id)).chars = nodeLine module id := by
  have hname : (shapeOf module id).name = if isLocal module id then "box" else "ellipse" := by
    unfold shapeOf
    split <;> rfl
  change "    ".toList ++ quoteChars id ++ " [shape=".toList ++ (shapeOf module id).name.toList ++
    "];\n".toList = _
  rw [hname]
  rfl

theorem flatMap_statements (module : String) (g : CallGraph) :
    (statements module g).flatMap Statement.chars =
      g.nodes.flatMap (nodeLine module) ++ g.edges.flatMap edgeLine := by
  have hnodes : (fun id => (Statement.node id (shapeOf module id)).chars) = nodeLine module :=
    funext (chars_shapeOf module)
  rw [statements, List.flatMap_append, List.flatMap_map, List.flatMap_map, hnodes]
  rfl

theorem dotChars_eq (module : String) (g : CallGraph) :
    dotChars module g = "digraph ".toList ++ (quoteChars module ++ (" \x7b\n".toList ++
      ((statements module g).flatMap Statement.chars ++ "\x7d\n".toList))) := by
  change "digraph ".toList ++ quoteChars module ++ " \x7b\n".toList ++
    g.nodes.flatMap (nodeLine module) ++ g.edges.flatMap edgeLine ++ "\x7d\n".toList = _
  rw [flatMap_statements]
  simp only [List.append_assoc]

theorem readDrawing_dot (module : String) (g : CallGraph) :
    readDrawing (dot module g).toList = some (module, statements module g) := by
  have hfuel : (statements module g).length ≤
      ((statements module g).flatMap Statement.chars ++ "\x7d\n".toList).length := by
    have hlen := length_le_chars (statements module g)
    rw [List.length_append]
    omega
  rw [dot, String.toList_ofList, dotChars_eq]
  simp only [readDrawing, Text.after?_append, Option.bind_eq_bind, Option.bind_some,
    readQuoted_quoteChars, readStatements_chars _ hfuel]
  rfl

/-! ### Shapes -/

theorem toList_append_dot (s t : String) :
    (s ++ "." ++ t).toList = s.toList ++ '.' :: t.toList := by
  rw [String.toList_append, String.toList_append, List.append_assoc]
  rfl

theorem toList_nodeId (module name : String) (arity : Nat) :
    (nodeId module name arity).toList =
      module.toList ++ '.' :: (name.toList ++ '/' :: Nat.toDigits 10 arity) := by
  have hid : nodeId module name arity = module ++ "." ++ name ++ "/" ++ arity.repr := rfl
  rw [hid, String.toList_append, String.toList_append, toList_append_dot, Nat.toList_repr,
    List.append_assoc, List.append_assoc]
  rfl

theorem isLocal_iff {module id : String} :
    isLocal module id = true ↔ module.toList ++ ['.'] <+: id.toList := Text.isSome_after?

theorem isLocal_nodeId (module name : String) (arity : Nat) :
    isLocal module (nodeId module name arity) = true := by
  rw [isLocal_iff, toList_nodeId]
  exact ⟨name.toList ++ '/' :: Nat.toDigits 10 arity, by simp⟩

/-- The identifier of `f` begins with the name of a module and a dot: `f` is of that module, or of
one whose name goes on after a dot, or its own name goes on with what the name of its module lacks
of the other. -/
def Under (module : String) (f : ExtFunc) : Prop :=
  f.module = module ∨ (∃ rest, f.module = module ++ "." ++ rest) ∨
    ∃ part rest, module = f.module ++ "." ++ part ∧ f.function = part ++ "." ++ rest

theorem dot_not_mem_digits (n : Nat) : '.' ∉ '/' :: Nat.toDigits 10 n := by
  intro h
  rcases List.mem_cons.mp h with h | h
  · cases h
  · cases Nat.isDigit_of_mem_toDigits (by decide) (by decide) h

theorem append_dot_isPrefix {m e f digits : List Char} (hdigits : '.' ∉ '/' :: digits) :
    m ++ ['.'] <+: e ++ '.' :: (f ++ '/' :: digits) ↔
      e = m ∨ (∃ rest, e = m ++ '.' :: rest) ∨
        ∃ part rest, m = e ++ '.' :: part ∧ f = part ++ '.' :: rest := by
  constructor
  · rintro ⟨t, ht⟩
    rw [List.append_assoc, List.singleton_append] at ht
    rcases List.append_eq_append_iff.mp ht with ⟨as, rfl, has⟩ | ⟨bs, rfl, hbs⟩
    · cases as with
      | nil => exact .inl (by simp)
      | cons c as =>
        cases has
        exact .inr (.inl ⟨as, rfl⟩)
    · cases bs with
      | nil => exact .inl (by simp)
      | cons c bs =>
        rw [List.cons_append, List.cons.injEq] at hbs
        obtain ⟨rfl, hbs⟩ := hbs
        -- The dot behind the rest of the name stands before the arity, which has none.
        rcases List.append_eq_append_iff.mp hbs with ⟨cs, rfl, hcs⟩ | ⟨ds, rfl, hds⟩
        · refine absurd ?_ hdigits
          rw [hcs]
          simp
        · cases ds with
          | nil => cases hds
          | cons d ds =>
            cases hds
            exact .inr (.inr ⟨bs, ds, rfl, rfl⟩)
  · rintro (rfl | ⟨rest, rfl⟩ | ⟨part, rest, rfl, rfl⟩)
    · exact ⟨f ++ '/' :: digits, by simp⟩
    · exact ⟨rest ++ '.' :: (f ++ '/' :: digits), by simp⟩
    · exact ⟨rest ++ '/' :: digits, by simp⟩

theorem isLocal_nodeId_iff (module : String) (f : ExtFunc) :
    isLocal module (nodeId f.module f.function f.arity) = true ↔ Under module f := by
  have hdot {s t : String} {rest : List Char} (h : s.toList = t.toList ++ '.' :: rest) :
      s = t ++ "." ++ String.ofList rest := by
    rw [← String.toList_inj, h, toList_append_dot, String.toList_ofList]
  rw [isLocal_iff, toList_nodeId, append_dot_isPrefix (dot_not_mem_digits f.arity)]
  constructor
  · rintro (h | ⟨rest, h⟩ | ⟨part, rest, hmodule, hfunction⟩)
    · exact .inl (String.toList_inj.mp h)
    · exact .inr (.inl ⟨_, hdot h⟩)
    · rw [← String.toList_ofList (l := part)] at hfunction
      exact .inr (.inr ⟨_, _, hdot hmodule, hdot hfunction⟩)
  · rintro (h | ⟨rest, h⟩ | ⟨part, rest, hmodule, hfunction⟩)
    · exact .inl (congrArg String.toList h)
    · exact .inr (.inl ⟨rest.toList, by rw [h, toList_append_dot]⟩)
    · refine .inr (.inr ⟨part.toList, rest.toList, ?_, ?_⟩)
      · rw [hmodule, toList_append_dot]
      · rw [hfunction, toList_append_dot]

/-! ### The functions that a module draws -/

/-- A function of a module names `f` in a call. -/
def Calls (fs : List RawFunction) (f : ExtFunc) : Prop :=
  ∃ caller ∈ fs, ∃ i ∈ caller.code, i.info.has .dynamicCall = false ∧
    (i.info.has .externalCall = true ∨ i.info.has .bifCall = true) ∧ Names i f

theorem mem_nodes_iff_calls {module : String} {fs : List RawFunction} {id : String} :
    id ∈ (ofFunctions module fs).nodes ↔
      (∃ f ∈ fs, id = nodeId module f.name f.arity) ∨
        ∃ f, Calls fs f ∧ id = nodeId f.module f.function f.arity := by
  rw [mem_nodes_ofFunctions]
  constructor
  · rintro (hlisted | ⟨caller, hcaller, i, hi, ht⟩)
    · exact .inl hlisted
    · cases ht with
      | named hdynamic hcall hf =>
        exact .inr ⟨_, ⟨caller, hcaller, i, hi, hdynamic, hcall, hf⟩, rfl⟩
      | @entered f _ _ _ _ hf =>
        obtain ⟨-, -, rfl, -⟩ := hf
        exact .inl ⟨f, by simp, rfl⟩
  · rintro (hlisted | ⟨f, ⟨caller, hcaller, i, hi, hdynamic, hcall, hf⟩, rfl⟩)
    · exact .inl hlisted
    · exact .inr ⟨caller, hcaller, i, hi, .named hdynamic hcall hf⟩

/-- The drawing of a module's call graph has a function in a shape. -/
def Drawn (module : String) (fs : List RawFunction) (id : String) (shape : Shape) : Prop :=
  ∃ ss, readDrawing (dot module (ofFunctions module fs)).toList = some (module, ss) ∧
    .node id shape ∈ ss

theorem drawn_iff {module : String} {fs : List RawFunction} {id : String} {shape : Shape} :
    Drawn module fs id shape ↔
      id ∈ (ofFunctions module fs).nodes ∧ shapeOf module id = shape := by
  constructor
  · rintro ⟨ss, hread, hmem⟩
    rw [readDrawing_dot] at hread
    cases hread
    rcases List.mem_append.mp hmem with hnode | hedge
    · obtain ⟨_, hid, hshape⟩ := List.mem_map.mp hnode
      cases hshape
      exact ⟨hid, rfl⟩
    · obtain ⟨_, -, hshape⟩ := List.mem_map.mp hedge
      cases hshape
  · rintro ⟨hid, rfl⟩
    exact ⟨_, readDrawing_dot .., List.mem_append_left _ (List.mem_map.mpr ⟨id, hid, rfl⟩)⟩

theorem shapeOf_eq_box {module id : String} :
    shapeOf module id = .box ↔ isLocal module id = true := by
  cases h : isLocal module id <;> simp [shapeOf, h]

theorem shapeOf_eq_ellipse {module id : String} :
    shapeOf module id = .ellipse ↔ ¬isLocal module id = true := by
  cases h : isLocal module id <;> simp [shapeOf, h]

/-- In the drawing of a module's call graph, the boxes are the functions of the module and those
called functions whose identifier begins with the name of the module and a dot, and all other called
functions are ellipses. -/
theorem drawn_shapes (module : String) (fs : List RawFunction) (id : String) :
    (Drawn module fs id .box ↔
      (∃ f ∈ fs, id = nodeId module f.name f.arity) ∨
        ∃ f, Calls fs f ∧ Under module f ∧ id = nodeId f.module f.function f.arity) ∧
    (Drawn module fs id .ellipse ↔
      ∃ f, Calls fs f ∧ ¬Under module f ∧ id = nodeId f.module f.function f.arity) := by
  rw [drawn_iff, drawn_iff, mem_nodes_iff_calls, shapeOf_eq_box, shapeOf_eq_ellipse]
  refine ⟨⟨?_, ?_⟩, ⟨?_, ?_⟩⟩
  · rintro ⟨hlisted | ⟨f, hf, rfl⟩, hlocal⟩
    · exact .inl hlisted
    · exact .inr ⟨f, hf, (isLocal_nodeId_iff module f).mp hlocal, rfl⟩
  · rintro (⟨f, hf, rfl⟩ | ⟨f, hf, hunder, rfl⟩)
    · exact ⟨.inl ⟨f, hf, rfl⟩, isLocal_nodeId module f.name f.arity⟩
    · exact ⟨.inr ⟨f, hf, rfl⟩, (isLocal_nodeId_iff module f).mpr hunder⟩
  · rintro ⟨⟨f, hf, rfl⟩ | ⟨f, hf, rfl⟩, hlocal⟩
    · exact absurd (isLocal_nodeId module f.name f.arity) hlocal
    · exact ⟨f, hf, fun hunder => hlocal ((isLocal_nodeId_iff module f).mpr hunder), rfl⟩
  · rintro ⟨f, hf, hunder, rfl⟩
    exact ⟨.inr ⟨f, hf, rfl⟩, fun hlocal => hunder ((isLocal_nodeId_iff module f).mp hlocal)⟩

-- `Elixir.A` calls a function of `Elixir.A.B`. That is another module, yet the function is a box.
theorem box_of_another_module :
    let fs : List RawFunction :=
      [⟨"run", 0, 2, [⟨7, [.unsigned 0, .extFunc ⟨"Elixir.A.B", "g", 0⟩]⟩]⟩]
    Drawn "Elixir.A" fs "Elixir.A.B.g/0" .box ∧
      ¬((∃ f ∈ fs, "Elixir.A.B.g/0" = nodeId "Elixir.A" f.name f.arity) ∨
        ∃ f, Calls fs f ∧ f.module = "Elixir.A" ∧
          "Elixir.A.B.g/0" = nodeId f.module f.function f.arity) := by
  intro fs
  refine ⟨drawn_iff.mpr ⟨by decide +kernel +zetaReduce, by decide +kernel⟩, ?_⟩
  rintro (⟨f, hf, hid⟩ | ⟨f, ⟨caller, hcaller, i, hi, -, -, hnames⟩, hmodule, -⟩)
  · rw [List.mem_singleton.mp hf] at hid
    revert hid
    decide +kernel
  · rw [List.mem_singleton.mp hcaller] at hi
    rw [List.mem_singleton.mp hi, ← namedFunction?_eq_some] at hnames
    have hcallee : namedFunction? ⟨7, [.unsigned 0, .extFunc ⟨"Elixir.A.B", "g", 0⟩]⟩ =
        some ⟨"Elixir.A.B", "g", 0⟩ := by decide +kernel
    rw [hcallee] at hnames
    cases hnames
    revert hmodule
    decide +kernel

end CallGraph

end BeamScope
