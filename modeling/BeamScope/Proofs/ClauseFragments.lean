import BeamScope.AbstractCode.Forms

/-!
# A clause over its lines

The clause of a function is written as a head and the expressions of its body. It is cut into
fragments only where an expression starts on a line further down than the fragment before it, so the
fragments, put side by side without their indent, are the clause on one line.
-/

namespace BeamScope.AbstractCode

open Text

/-! ### What is written of a clause -/

theorem readAll_eq_map (ts : List Term) : readAll ts = ts.map readExpr := by
  induction ts with
  | nil => rfl
  | cons t ts ih => rw [readAll, ih, List.map_cons]

theorem readSequences_eq_map (ts : List Term) : readSequences ts = ts.map readSequence := by
  induction ts with
  | nil => rfl
  | cons t ts ih => rw [readSequences, ih, List.map_cons]

theorem printedAll_eq_map (es : List Expr) : printedAll es = es.map printed := by
  induction es with
  | nil => rfl
  | cons e es ih => rw [printedAll, ih, List.map_cons]

theorem printedGuards_eq_map (gs : List (List Expr)) :
    printedGuards gs = gs.map fun g => commas (printedAll g) := by
  induction gs with
  | nil => rfl
  | cons g gs ih => rw [printedGuards, ih, List.map_cons]

/-- Expressions with commas; what is no list has no written form. -/
def sequenceText (t : Term) : List Char :=
  match t.asList? with
  | some ts => join [',', ' '] (ts.map exprChars)
  | none => unknownText

/-- The guards of a clause behind its patterns, if there are any. -/
def guardText (guards : Term) : List Char :=
  match guards.asList? with
  | some (g :: gs) => " when ".toList ++ join [';', ' '] ((g :: gs).map sequenceText)
  | _ => []

/-- A clause up to its arrow. -/
def headText (name : List Char) (patterns guards : Term) : List Char :=
  name ++ "(".toList ++ sequenceText patterns ++ ")".toList ++ guardText guards ++ " ->".toList

theorem sequenceChars_eq (t : Term) : sequenceChars t = sequenceText t := by
  have hitems (ts : List Term) :
      commas (printedAll (readAll ts)) = join [',', ' '] (ts.map exprChars) := by
    rw [commas, printedAll_eq_map, readAll_eq_map, List.map_map, List.map_map]
    rfl
  cases t with
  | list ts => exact hitems ts
  | _ => rfl

theorem whenGuards_eq (guards : Term) :
    whenGuards (printedGuards (readGuards guards)) = guardText guards := by
  cases guards with
  | list gs =>
    have hguards : printedGuards (readGuards (.list gs)) = gs.map sequenceText := by
      rw [readGuards, printedGuards_eq_map, readSequences_eq_map, List.map_map]
      exact List.map_congr_left fun g _ => sequenceChars_eq g
    rw [hguards]
    cases gs <;> rfl
  | _ => rfl

theorem clauseHead_eq (name : List Char) (patterns guards : Term) :
    clauseHead name patterns guards = headText name patterns guards := by
  rw [clauseHead, sequenceChars_eq, whenGuards_eq]
  rfl

/-- An expression of a body, with what stands behind it. -/
structure BodyPart where
  line : Nat
  text : List Char

/-- The expressions of a body in order: a comma behind each, and `closing` behind the last. -/
def bodyParts (closing : Char) (body : List Term) : List BodyPart :=
  (body.dropLast.map fun e => ⟨exprLine e, exprChars e ++ [',']⟩) ++
    body.getLast?.toList.map fun e => ⟨exprLine e, exprChars e ++ [closing]⟩

theorem bodyParts_cons (closing : Char) (e : Term) (es : List Term) :
    bodyParts closing (e :: es) =
      ⟨exprLine e, exprChars e ++ [if es.isEmpty then closing else ',']⟩ ::
        bodyParts closing es := by
  cases es with
  | nil => rfl
  | cons e' es => rw [bodyParts, List.dropLast_cons_cons, List.getLast?_cons_cons]; rfl

/-! ### How it is cut -/

def indent : List Char := "    ".toList

/-- Each text with a blank in front. -/
def spaced (parts : List BodyPart) : List Char := parts.flatMap fun p => ' ' :: p.text

theorem append_spaced_nil (text : List Char) : text ++ spaced [] = text := List.append_nil text

theorem append_spaced_cons (text : List Char) (p : BodyPart) (parts : List BodyPart) :
    text ++ spaced (p :: parts) = text ++ ' ' :: p.text ++ spaced parts := by
  simp [spaced]

/-- The fragment of an expression that begins a line, with others behind it. -/
def lineFragment (stretch : BodyPart × List BodyPart) : Fragment :=
  ⟨stretch.1.line, String.ofList (indent ++ stretch.1.text ++ spaced stretch.2)⟩

/-- `fs` is a text that begins on `line`, with the parts `front` behind it, and then one fragment
for each of `later`. Each of these starts on the line of its first part, past the line before it, and
no part behind the first is past that line. -/
structure Cuts (line : Nat) (text : List Char) (front : List BodyPart)
    (later : List (BodyPart × List BodyPart)) (fs : List Fragment) : Prop where
  fragments_eq : fs = ⟨line, String.ofList (text ++ spaced front)⟩ :: later.map lineFragment
  front_le : ∀ p ∈ front, p.line ≤ line
  later_le : ∀ stretch ∈ later, ∀ p ∈ stretch.2, p.line ≤ stretch.1.line
  ascending : (line :: later.map fun stretch => stretch.1.line).Pairwise (· < ·)

/-- The parts of a body that was cut, in order. -/
def allParts (front : List BodyPart) (later : List (BodyPart × List BodyPart)) : List BodyPart :=
  front ++ later.flatMap fun stretch => stretch.1 :: stretch.2

section Steps

variable {line : Nat} {text : List Char} {p : BodyPart} {front : List BodyPart}
  {later : List (BodyPart × List BodyPart)} {fs : List Fragment}

theorem Cuts.goOn (h : Cuts line (text ++ ' ' :: p.text) front later fs) (hp : p.line ≤ line) :
    Cuts line text (p :: front) later fs := by
  refine ⟨?_, ?_, h.later_le, h.ascending⟩
  · rw [h.fragments_eq, append_spaced_cons]
  · intro q hq
    rcases List.mem_cons.mp hq with rfl | hq
    · exact hp
    · exact h.front_le q hq

theorem Cuts.beginLine (h : Cuts p.line (indent ++ p.text) front later fs) (hp : line < p.line) :
    Cuts line text [] ((p, front) :: later) (⟨line, String.ofList text⟩ :: fs) := by
  refine ⟨?_, nofun, ?_, ?_⟩
  · rw [h.fragments_eq, append_spaced_nil]
    rfl
  · intro stretch hstretch
    rcases List.mem_cons.mp hstretch with rfl | hstretch
    · exact h.front_le
    · exact h.later_le stretch hstretch
  · apply List.pairwise_cons.mpr ⟨?_, h.ascending⟩
    intro n hn
    rcases List.mem_cons.mp hn with rfl | hn
    · exact hp
    · exact Nat.lt_trans hp ((List.pairwise_cons.mp h.ascending).1 n hn)

end Steps

theorem cuts_bodyFragments (closing : Char) (line : Nat) (text : List Char) (body : List Term) :
    ∃ front later, bodyParts closing body = allParts front later ∧
      Cuts line text front later (bodyFragments closing line text body) := by
  induction body generalizing line text with
  | nil =>
    refine ⟨[], [], rfl, ?_, nofun, nofun, List.pairwise_singleton _ _⟩
    rw [bodyFragments, append_spaced_nil]
    rfl
  | cons e es ih =>
    rw [bodyParts_cons]
    by_cases hline : exprLine e ≤ line
    · rw [bodyFragments, if_pos hline]
      obtain ⟨front, later, hparts, hcuts⟩ := ih line _
      exact ⟨_ :: front, later, congrArg (List.cons _) hparts, Cuts.goOn hcuts hline⟩
    · rw [bodyFragments, if_neg hline]
      obtain ⟨front, later, hparts, hcuts⟩ := ih (exprLine e) _
      exact ⟨[], (_, front) :: later, congrArg (List.cons _) hparts,
        Cuts.beginLine hcuts (Nat.lt_of_not_le hline)⟩

/-! ### Side by side -/

/-- The texts of the fragments of a clause, all but the first without their indent. -/
def unindented : List Fragment → List (List Char)
  | [] => []
  | f :: fs => f.text.toList :: fs.map fun g => g.text.toList.drop indent.length

/-- How a clause with the head `head` and the parts `parts` is spread over `fs`: from its own line
down, with an indent on every other line, and on one line it reads as the head and the parts with
single blanks between them. -/
structure Spreads (line : Nat) (head : List Char) (parts : List BodyPart) (fs : List Fragment) :
    Prop where
  head_line : fs.head?.map Fragment.line = some line
  ascending : (fs.map Fragment.line).Pairwise (· < ·)
  cuts : ∃ front later, parts = allParts front later ∧ Cuts line head front later fs
  indented : ∀ f ∈ fs.tail, indent <+: f.text.toList
  joined : join [' '] (unindented fs) = join [' '] (head :: parts.map BodyPart.text)

theorem join_texts (text : List Char) (parts : List BodyPart) :
    join [' '] (text :: parts.map BodyPart.text) = text ++ spaced parts := by
  rw [join_cons, List.flatMap_map]
  rfl

theorem unindented_lineFragment (stretch : BodyPart × List BodyPart) :
    (lineFragment stretch).text.toList.drop indent.length =
      stretch.1.text ++ spaced stretch.2 := by
  rw [lineFragment, String.toList_ofList, List.append_assoc, List.drop_left]

theorem spaced_allParts (front : List BodyPart) (later : List (BodyPart × List BodyPart)) :
    spaced (allParts front later) = spaced front ++
      later.flatMap fun stretch => ' ' :: (stretch.1.text ++ spaced stretch.2) := by
  rw [spaced, allParts, List.flatMap_append, List.flatMap_assoc]
  rfl

theorem Cuts.spreads {line : Nat} {head : List Char} {front : List BodyPart}
    {later : List (BodyPart × List BodyPart)} {fs : List Fragment}
    (h : Cuts line head front later fs) : Spreads line head (allParts front later) fs := by
  have hlines : fs.map Fragment.line = line :: later.map fun stretch => stretch.1.line := by
    rw [h.fragments_eq, List.map_cons, List.map_map]
    rfl
  refine ⟨?_, hlines ▸ h.ascending, ⟨front, later, rfl, h⟩, ?_, ?_⟩
  · rw [h.fragments_eq]
    rfl
  · rw [h.fragments_eq, List.tail_cons]
    intro f hf
    obtain ⟨stretch, -, rfl⟩ := List.mem_map.mp hf
    rw [lineFragment, String.toList_ofList, List.append_assoc]
    exact List.prefix_append ..
  · have htexts : unindented fs =
        (head ++ spaced front) :: later.map fun s => s.1.text ++ spaced s.2 := by
      rw [h.fragments_eq, unindented, String.toList_ofList, List.map_map]
      exact congrArg _ (List.map_congr_left fun s _ => unindented_lineFragment s)
    rw [htexts, join_texts, spaced_allParts, join_cons, List.flatMap_map, List.append_assoc]
    rfl

/-! ### Clauses of a function -/

/-- What stands behind the clause of index `i` of `n` clauses. -/
def clauseEnd (n i : Nat) : Char := if i + 1 = n then '.' else ';'

theorem functionFragments_eq (name : List Char) (cs : List Term) :
    functionFragments name cs =
      (cs.mapIdx fun i c => clauseFragments name (clauseEnd cs.length i) c).flatten := by
  induction cs with
  | nil => rfl
  | cons c cs ih =>
    have hfirst : clauseEnd (cs.length + 1) 0 = if cs.isEmpty then '.' else ';' := by
      cases cs <;> rfl
    have hlater (i : Nat) : clauseEnd (cs.length + 1) (i + 1) = clauseEnd cs.length i := by
      simp [clauseEnd]
    rw [functionFragments, ih, List.mapIdx_cons, List.flatten_cons, List.length_cons, hfirst]
    simp only [hlater]

theorem fragments_append (before after : List Term) :
    fragments (before ++ after) = fragments before ++ fragments after := List.flatMap_append

theorem spreads_clauseFragments (name : List Char) (closing : Char)
    (tag place patterns guards body : Term) :
    Spreads (annotationLine place) (headText name patterns guards)
      (bodyParts closing ((body.asList?).getD []))
      (clauseFragments name closing (.tuple [tag, place, patterns, guards, body])) := by
  rw [clauseFragments, clauseHead_eq]
  obtain ⟨front, later, hparts, hcuts⟩ := cuts_bodyFragments closing (annotationLine place)
    (headText name patterns guards) ((body.asList?).getD [])
  rw [hparts]
  exact hcuts.spreads

theorem clauseFragments_eq_nil (name : List Char) (closing : Char) {c : Term}
    (h : ∀ tag place patterns guards body, c ≠ .tuple [tag, place, patterns, guards, body]) :
    clauseFragments name closing c = [] := by
  unfold clauseFragments
  split
  next tag place patterns guards body => exact absurd rfl (h tag place patterns guards body)
  next => rfl

/-- Among the fragments of any forms, those of a function are the fragments of its clauses in order.
A clause that is none has no fragments. One that is a clause is spread over its lines, and only line
breaks are put in. -/
theorem fragments_of_clauses (before after : List Term) (anno name arity clauses : Term) :
    let cs := (clauses.asList?).getD []
    let nameText := atomChars ((name.asAtom?).getD "?")
    ∃ parts : List (List Fragment),
      fragments (before ++ .tuple [.atom "function", anno, name, arity, clauses] :: after) =
        fragments before ++ parts.flatten ++ fragments after ∧
      parts.length = cs.length ∧
      (∀ (i : Nat) (c : Term), cs[i]? = some c →
        (∀ tag place patterns guards body, c ≠ .tuple [tag, place, patterns, guards, body]) →
        parts[i]? = some []) ∧
      ∀ i tag place patterns guards body,
        cs[i]? = some (.tuple [tag, place, patterns, guards, body]) →
        ∃ fs, parts[i]? = some fs ∧
          Spreads (annotationLine place) (headText nameText patterns guards)
            (bodyParts (if i + 1 = cs.length then '.' else ';') ((body.asList?).getD [])) fs := by
  intro cs nameText
  have hpart {i : Nat} {c : Term} (hc : cs[i]? = some c) :
      (cs.mapIdx fun i c => clauseFragments nameText (clauseEnd cs.length i) c)[i]? =
        some (clauseFragments nameText (clauseEnd cs.length i) c) := by
    rw [List.getElem?_mapIdx, hc]
    rfl
  refine ⟨cs.mapIdx fun i c => clauseFragments nameText (clauseEnd cs.length i) c, ?_,
    List.length_mapIdx, ?_, ?_⟩
  · have hform : formFragments (.tuple [.atom "function", anno, name, arity, clauses]) =
        functionFragments nameText cs := rfl
    rw [← functionFragments_eq, ← hform, fragments_append, List.append_assoc]
    rfl
  · intro i c hc hnone
    rw [hpart hc, clauseFragments_eq_nil _ _ hnone]
  · intro i tag place patterns guards body hclause
    exact ⟨_, hpart hclause, spreads_clauseFragments nameText _ tag place patterns guards body⟩

-- Behind a clause that is none, one whose body goes on in the same line, two lines down, back up,
-- without a line, and down again.
theorem fragments_of_clauses_back_up :
    let x (line : Term) : Term := .tuple [.atom "var", line, .atom "X"]
    let body := [x (.integer 3), x (.integer 5), x (.integer 4), x .nil, x (.integer 6)]
    let clause := Term.tuple [.atom "clause", .integer 3, .list [x .nil], .nil, .list body]
    let form := Term.tuple [.atom "function", .nil, .atom "f", .integer 1, .list [.nil, clause]]
    Spreads 3 "f(X) ->".toList (bodyParts '.' body) (fragments [form]) ∧
      fragments [form] = [⟨3, "f(X) -> X,"⟩, ⟨5, "    X, X, X,"⟩, ⟨6, "    X."⟩] := by
  intro x body clause form
  obtain ⟨parts, hform, hlength, hnone, hclause⟩ :=
    fragments_of_clauses [] [] .nil (.atom "f") (.integer 1) (.list [.nil, clause])
  obtain ⟨fs, hfs, hspreads⟩ := hclause 1 _ _ _ _ _ rfl
  have hfirst := hnone 0 .nil rfl nofun
  have hparts : parts = [[], fs] := by
    match parts, hlength with
    | [a, b], _ =>
      cases hfirst
      cases hfs
      rfl
  have hall : fragments [form] = fs := by
    refine hform.trans ?_
    rw [hparts]
    exact (List.append_nil _).trans (List.append_nil _)
  rw [hall]
  refine ⟨hspreads, hall.symm.trans ?_⟩
  decide

end BeamScope.AbstractCode
