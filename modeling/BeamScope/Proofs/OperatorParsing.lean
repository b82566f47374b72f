import BeamScope.Proofs.OperatorTokens

/-!
# Brackets keep the structure of operators

Printing puts an operand in brackets by comparing how it binds with what its place asks for.
`parse` reads the tokens back by precedence climbing: an operand, then operators between operands as
long as they bind tightly enough. The invariant is about what stands behind an expression: an
operator there takes the expression as its left operand (`Takes`), so nothing inside goes on past
its own end.
-/

namespace BeamScope.AbstractCode

/-- How a token between two operands binds, and what it makes of them. -/
structure Joint where
  binding : Nat × Bool
  build : OpExpr → OpExpr → OpExpr

def joint? : Token → Option Joint
  | .fixed text =>
    if text = "=" then some ⟨matchBinding, .match_⟩
    else if h : text ∈ binaryOps then some ⟨binaryPrec text, .binary ⟨text, h⟩⟩
    else none
  | _ => none

mutual

/-- An expression that binds at least with `least`, and what is left behind it. A catch goes on as
far as it can. -/
def parseExpr : (fuel least : Nat) → List Token → Option (OpExpr × List Token)
  | fuel + 1, least, .var name :: ts => climb fuel least (.var name) ts
  | fuel + 1, least, .integer n :: ts => climb fuel least (.integer n) ts
  | fuel + 1, least, .fixed text :: ts =>
    if text = "(" then do
      let (e, ts) ← parseExpr fuel catchPrec ts
      if ts.head? = some (.fixed ")") then climb fuel least e ts.tail else none
    else if text = "catch" then
      if catchPrec < least then none
      else do
        let (e, ts) ← parseExpr fuel catchPrec ts
        return (.catch_ e, ts)
    else if h : text ∈ unaryOps then do
      let (e, ts) ← parseExpr fuel unaryPrec ts
      climb fuel least (.unary ⟨text, h⟩ e) ts
    else none
  | _, _, _ => none

/-- Go on from `left` with the operators that bind at least with `least`. -/
def climb : (fuel least : Nat) → OpExpr → List Token → Option (OpExpr × List Token)
  | 0, _, _, _ => none
  | _ + 1, _, left, [] => some (left, [])
  | fuel + 1, least, left, t :: ts =>
    match joint? t with
    | none => some (left, t :: ts)
    | some j =>
      if j.binding.1 < least then some (left, t :: ts)
      else do
        let (right, ts) ← parseExpr fuel (rightLeast j.binding) ts
        climb fuel least (j.build left right) ts

end

/-- The expression that all of the tokens are. Every call takes a token, so the fuel is never used
up before the tokens are. -/
def parse (ts : List Token) : Option OpExpr :=
  match parseExpr (ts.length + 1) catchPrec ts with
  | some (e, []) => some e
  | _ => none

/-! ### How operators bind -/

def bindings : List (Nat × Bool) :=
  [(1, true), (2, true), (3, true), (4, false), (5, true), (6, false), (7, false)]

theorem mem_bindings {t : Token} {j : Joint} (h : joint? t = some j) : j.binding ∈ bindings := by
  have hbinary : ∀ op ∈ binaryOps, binaryPrec op ∈ bindings := by decide
  cases t with
  | fixed text =>
    rw [joint?] at h
    split at h
    · cases h
      decide
    · split at h
      next hop =>
        cases h
        exact hbinary text hop
      · cases h
  | _ => cases h

theorem joint?_match : joint? (.fixed "=") = some ⟨matchBinding, .match_⟩ := rfl

theorem joint?_binary (op : BinaryOp) : joint? (.fixed op) = some ⟨binaryPrec op, .binary op⟩ := by
  have hne : ∀ op ∈ binaryOps, op ≠ "=" := by decide
  rw [joint?, if_neg (hne op op.2), dif_pos op.2]

/-- An operator that follows takes an expression that binds with `p` as its left operand. -/
def Takes (p : Nat) (ts : List Token) : Prop :=
  ∀ t ∈ ts.head?, ∀ j, joint? t = some j → leftLeast j.binding ≤ p

/-- An operator that follows binds too loosely to go on at `least`. -/
def Leaves (least : Nat) (ts : List Token) : Prop :=
  ∀ t ∈ ts.head?, ∀ j, joint? t = some j → j.binding.1 < least

theorem Takes.mono {p q : Nat} {ts : List Token} (h : Takes p ts) (hle : p ≤ q) : Takes q ts :=
  fun t ht j hj => Nat.le_trans (h t ht j hj) hle

theorem takes_cons {t : Token} {j : Joint} (h : joint? t = some j) (ts : List Token) :
    Takes (leftLeast j.binding) (t :: ts) := by
  intro t' ht' j' hj'
  cases ht'
  rw [h] at hj'
  cases hj'
  exact Nat.le_refl _

theorem Takes.leaves {t : Token} {j : Joint} (hj : joint? t = some j) {ts : List Token}
    (h : Takes j.binding.1 ts) : Leaves (rightLeast j.binding) ts := by
  -- Operators of one level group to the same side, so a right operand ends before the next of them.
  have hall : ∀ b ∈ bindings, ∀ c ∈ bindings, leftLeast c ≤ b.1 → c.1 < rightLeast b := by decide
  intro t' ht' j' hj'
  exact hall _ (mem_bindings hj) _ (mem_bindings hj') (h t' ht' j' hj')

theorem leaves_unary (ts : List Token) : Leaves unaryPrec ts := by
  have hall : ∀ c ∈ bindings, c.1 < unaryPrec := by decide
  intro t ht j hj
  exact hall _ (mem_bindings hj)

theorem Takes.leaves_catch {ts : List Token} (h : Takes catchPrec ts) : Leaves catchPrec ts := by
  have hall : ∀ c ∈ bindings, ¬leftLeast c ≤ catchPrec := by decide
  intro t ht j hj
  exact absurd (h t ht j hj) (hall _ (mem_bindings hj))

/-! ### Steps of the parser -/

theorem climb_stop {fuel least : Nat} (e : OpExpr) {rest : List Token} (hfuel : 0 < fuel)
    (h : Leaves least rest) : climb fuel least e rest = some (e, rest) := by
  obtain ⟨fuel, rfl⟩ := Nat.exists_eq_add_one.mpr hfuel
  cases rest with
  | nil => rfl
  | cons t ts =>
    rw [climb]
    cases hj : joint? t with
    | none => rfl
    | some j => exact if_pos (h t rfl j hj)

theorem climb_joint {fuel least : Nat} {t : Token} {j : Joint} (hj : joint? t = some j)
    (hleast : least ≤ j.binding.1) (left : OpExpr) (ts : List Token) :
    climb (fuel + 1) least left (t :: ts) =
      (parseExpr fuel (rightLeast j.binding) ts).bind fun found =>
        climb fuel least (j.build left found.1) found.2 := by
  rw [climb, hj]
  exact if_neg (Nat.not_lt.mpr hleast)

/-- Parsing goes past `ts`, which stands in front of `rest`, and on from there with `e` at hand. -/
def Passes (least : Nat) (ts rest : List Token) (e : OpExpr) : Prop :=
  ∀ fuel, (ts ++ rest).length < fuel →
    ∃ fuel', rest.length < fuel' ∧ parseExpr fuel least (ts ++ rest) = climb fuel' least e rest

/-- Where nothing goes on, the expression is all that is found. -/
theorem Passes.parseExpr_eq {least fuel : Nat} {ts rest : List Token} {e : OpExpr}
    (h : Passes least ts rest e) (hleaves : Leaves least rest)
    (hfuel : (ts ++ rest).length < fuel) :
    parseExpr fuel least (ts ++ rest) = some (e, rest) := by
  obtain ⟨fuel', hfuel', heq⟩ := h fuel hfuel
  rw [heq, climb_stop e (Nat.zero_lt_of_lt hfuel') hleaves]

/-- What is said of the tokens of one expression in every context. -/
def Read (e : OpExpr) : Prop :=
  ∀ (least : Nat) (rest : List Token), least ≤ e.prec → Takes e.prec rest →
    Passes least e.tokens rest e

theorem Read.passes_at {e : OpExpr} (h : Read e) {least place : Nat} {rest : List Token}
    (hle : least ≤ place) (hrest : Takes place rest) :
    Passes least (e.tokensAt place) rest e := by
  unfold OpExpr.tokensAt
  split
  · intro fuel hfuel
    obtain ⟨fuel, rfl⟩ := Nat.exists_eq_add_one.mpr (Nat.zero_lt_of_lt hfuel)
    simp only [List.cons_append, List.append_assoc, List.nil_append, List.length_cons,
      List.length_append] at hfuel
    have hclosing : Takes e.prec (.fixed ")" :: rest) := by
      intro t ht j hj
      cases ht
      cases hj
    have hstop : Leaves catchPrec (.fixed ")" :: rest) := by
      intro t ht j hj
      cases ht
      cases hj
    have hlength : (e.tokens ++ .fixed ")" :: rest).length < fuel := by
      simp only [List.length_append, List.length_cons]
      omega
    have hinner := (h catchPrec _ (Nat.zero_le _) hclosing).parseExpr_eq hstop hlength
    refine ⟨fuel, by omega, ?_⟩
    rw [List.cons_append, List.cons_append, List.append_assoc, List.singleton_append, parseExpr,
      if_pos rfl, hinner]
    rfl
  next hbinds => exact h least rest (by omega) (hrest.mono (by omega))

theorem passes_between {t : Token} {j : Joint} (hj : joint? t = some j) {l r : OpExpr} (hl : Read l)
    (hr : Read r) {least : Nat} {rest : List Token} (hleast : least ≤ j.binding.1)
    (hrest : Takes j.binding.1 rest) :
    Passes least (l.tokensAt (leftLeast j.binding) ++ t :: r.tokensAt (rightLeast j.binding)) rest
      (j.build l r) := by
  have hleft : j.binding.1 ≤ leftLeast j.binding := by
    unfold leftLeast
    split <;> omega
  have hright : j.binding.1 ≤ rightLeast j.binding := by
    unfold rightLeast
    split <;> omega
  intro fuel hfuel
  rw [List.append_assoc, List.cons_append] at hfuel ⊢
  obtain ⟨fuel₁, hfuel₁, heq⟩ :=
    hl.passes_at (Nat.le_trans hleast hleft) (takes_cons hj _) fuel hfuel
  obtain ⟨fuel₂, rfl⟩ := Nat.exists_eq_add_one.mpr (Nat.zero_lt_of_lt hfuel₁)
  have hoperand := (hr.passes_at (Nat.le_refl _) (hrest.mono hright)).parseExpr_eq (hrest.leaves hj)
    (Nat.lt_of_succ_lt_succ hfuel₁)
  rw [List.length_cons] at hfuel₁
  rw [List.length_append] at hfuel₁
  refine ⟨fuel₂, by omega, ?_⟩
  rw [heq, climb_joint hj hleast, hoperand]
  rfl

theorem read_all (e : OpExpr) : Read e := by
  induction e with
  | var name =>
    intro least rest _ _ fuel hfuel
    obtain ⟨fuel, rfl⟩ := Nat.exists_eq_add_one.mpr (Nat.zero_lt_of_lt hfuel)
    exact ⟨fuel, Nat.lt_of_succ_lt_succ hfuel, rfl⟩
  | integer n =>
    intro least rest _ _ fuel hfuel
    obtain ⟨fuel, rfl⟩ := Nat.exists_eq_add_one.mpr (Nat.zero_lt_of_lt hfuel)
    exact ⟨fuel, Nat.lt_of_succ_lt_succ hfuel, rfl⟩
  | binary op l r ihl ihr =>
    intro least rest hleast hrest
    rw [OpExpr.tokens, OpExpr.pieces, OpExpr.tokens_between]
    exact passes_between (joint?_binary op) ihl ihr hleast hrest
  | match_ p v ihp ihv =>
    intro least rest hleast hrest
    rw [OpExpr.tokens, OpExpr.pieces, OpExpr.tokens_between]
    exact passes_between joint?_match ihp ihv hleast hrest
  | unary op a ih =>
    intro least rest hleast hrest fuel hfuel
    have hnames : ∀ op ∈ unaryOps, op ≠ "(" ∧ op ≠ "catch" := by decide
    obtain ⟨hopen, hcatch⟩ := hnames op op.2
    obtain ⟨fuel, rfl⟩ := Nat.exists_eq_add_one.mpr (Nat.zero_lt_of_lt hfuel)
    rw [OpExpr.tokens_unary, List.cons_append] at hfuel ⊢
    have htakes : Takes unaryPrec rest := hrest
    have hoperand := (ih.passes_at (Nat.le_refl _) htakes).parseExpr_eq (leaves_unary rest)
      (Nat.lt_of_succ_lt_succ hfuel)
    rw [List.length_cons, List.length_append] at hfuel
    refine ⟨fuel, by omega, ?_⟩
    rw [parseExpr, if_neg hopen, if_neg hcatch, dif_pos op.2, hoperand]
    rfl
  | catch_ i ih =>
    intro least rest hleast hrest fuel hfuel
    obtain ⟨fuel, rfl⟩ := Nat.exists_eq_add_one.mpr (Nat.zero_lt_of_lt hfuel)
    rw [OpExpr.tokens_catch, List.cons_append] at hfuel ⊢
    have hstop := hrest.leaves_catch
    have hpasses := ih catchPrec rest (Nat.zero_le _) (hrest.mono (Nat.zero_le _))
    have hinner := hpasses.parseExpr_eq hstop (Nat.lt_of_succ_lt_succ hfuel)
    rw [List.length_cons, List.length_append] at hfuel
    refine ⟨fuel, by omega, ?_⟩
    have hzero : least = catchPrec := Nat.le_antisymm hleast (Nat.zero_le _)
    subst hzero
    rw [parseExpr, if_neg (by decide), if_pos rfl, if_neg (Nat.lt_irrefl _), hinner,
      climb_stop _ (by omega) hstop]
    rfl

theorem parse_tokens (e : OpExpr) : parse e.tokens = some e := by
  have hnothing : ∀ p, Takes p [] := fun p t ht => by cases ht
  have hstop : Leaves catchPrec [] := fun t ht => by cases ht
  have hfound := (read_all e catchPrec [] (Nat.zero_le _) (hnothing _)).parseExpr_eq hstop
    (Nat.lt_succ_self _)
  rw [List.append_nil] at hfound
  rw [parse, hfound]

/-- Brackets keep the structure of operators. The text of an expression is the spellings of its
tokens, with blanks between them; reading the tokens by precedence climbing gives the expression
back, and no other expression has the same tokens. -/
theorem brackets_keep_structure (t : Term) (e : OpExpr) (h : Represents t e) :
    exprChars t = e.pieces.flatMap Piece.chars ∧
    parse (e.pieces.filterMap Piece.token?) = some e ∧
    ∀ (t' : Term) (e' : OpExpr), Represents t' e' →
      e'.pieces.filterMap Piece.token? = e.pieces.filterMap Piece.token? → e' = e := by
  refine ⟨exprChars_eq h, parse_tokens e, ?_⟩
  intro t' e' _ hsame
  have hparse : parse e'.tokens = some e := by
    rw [OpExpr.tokens, hsame]
    exact parse_tokens e
  rw [parse_tokens e'] at hparse
  exact Option.some.inj hparse

-- Brackets on the right of an operator that groups to the left, and two signs in a row.
theorem brackets_keep_structure_minus :
    let minus : BinaryOp := ⟨"-", by decide⟩
    let negate : UnaryOp := ⟨"-", by decide⟩
    let e : OpExpr := .binary minus (.var "X")
      (.binary minus (.var "Y") (.unary negate (.unary negate (.integer 1))))
    ∃ t, Represents t e ∧ exprChars t = "X - (Y - --1)".toList ∧
      parse [.var "X", .fixed "-", .fixed "(", .var "Y", .fixed "-", .fixed "-", .fixed "-",
        .integer 1, .fixed ")"] = some e := by
  intro minus negate e
  have hinner := Represents.unary .nil negate (.unary .nil negate (.integer .nil 1))
  have hright := Represents.binary .nil minus (.var .nil "Y") hinner
  have hwhole := Represents.binary .nil minus (.var .nil "X") hright
  obtain ⟨htext, hparse, -⟩ := brackets_keep_structure _ e hwhole
  have hchars : e.pieces.flatMap Piece.chars = "X - (Y - --1)".toList := by
    decide +kernel +zetaReduce
  have htokens : e.pieces.filterMap Piece.token? = [.var "X", .fixed "-", .fixed "(", .var "Y",
      .fixed "-", .fixed "-", .fixed "-", .integer 1, .fixed ")"] := by
    decide +kernel +zetaReduce
  exact ⟨_, hwhole, htext.trans hchars, htokens ▸ hparse⟩

end BeamScope.AbstractCode
