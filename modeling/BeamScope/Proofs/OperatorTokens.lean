import BeamScope.AbstractCode.Printer

/-!
# What is written of operators

Expressions of operators, matches and catches over variables and integers, and the tokens that
printing writes for them. A text is the spellings of its tokens, in order, with blanks between some
of them (`OpExpr.pieces`); `exprChars_eq` says that this is what printing gives.
-/

namespace BeamScope.AbstractCode

open Text

def binaryOps : List String := [
    "!", "orelse", "andalso", "==", "/=", "=<", "<", ">=", ">", "=:=", "=/=", "++", "--", "+", "-",
    "bor", "bxor", "bsl", "bsr", "or", "xor", "*", "/", "div", "rem", "band", "and"]

def signs : List String := ["+", "-"]

def unaryOps : List String := signs ++ ["not", "bnot"]

abbrev BinaryOp := { op : String // op ∈ binaryOps }

abbrev UnaryOp := { op : String // op ∈ unaryOps }

inductive OpExpr where
  | var (name : String)
  | integer (n : Nat)
  | binary (op : BinaryOp) (left right : OpExpr)
  | unary (op : UnaryOp) (arg : OpExpr)
  | match_ (pattern value : OpExpr)
  | catch_ (inner : OpExpr)
  deriving DecidableEq

/-- The term is abstract code of the expression; what it says about places in the source does not
matter. -/
inductive Represents : Term → OpExpr → Prop where
  | var (place : Term) (name : String) :
      Represents (.tuple [.atom "var", place, .atom name]) (.var name)
  | integer (place : Term) (n : Nat) :
      Represents (.tuple [.atom "integer", place, .integer n]) (.integer n)
  | binary (place : Term) (op : BinaryOp) {l r : Term} {left right : OpExpr}
      (hl : Represents l left) (hr : Represents r right) :
      Represents (.tuple [.atom "op", place, .atom op, l, r]) (.binary op left right)
  | unary (place : Term) (op : UnaryOp) {a : Term} {arg : OpExpr} (ha : Represents a arg) :
      Represents (.tuple [.atom "op", place, .atom op, a]) (.unary op arg)
  | match_ (place : Term) {p v : Term} {pattern value : OpExpr} (hp : Represents p pattern)
      (hv : Represents v value) :
      Represents (.tuple [.atom "match", place, p, v]) (.match_ pattern value)
  | catch_ (place : Term) {i : Term} {inner : OpExpr} (hi : Represents i inner) :
      Represents (.tuple [.atom "catch", place, i]) (.catch_ inner)

inductive Token where
  /-- An operator, a reserved word or a bracket. -/
  | fixed (text : String)
  | atom (name : String)
  | var (name : String)
  | integer (n : Nat)
  deriving DecidableEq

def Token.chars : Token → List Char
  | .fixed text => text.toList
  | .atom name => name.toList
  | .var name => name.toList
  | .integer n => intChars n

inductive Piece where
  | token (t : Token)
  | blank

namespace Piece

def chars : Piece → List Char
  | token t => t.chars
  | blank => [' ']

def token? : Piece → Option Token
  | token t => some t
  | blank => none

end Piece

/-- The pieces of an expression that binds with `prec`, in a place that asks for `least`. -/
def inPlace (least prec : Nat) (ps : List Piece) : List Piece :=
  if prec < least then .token (.fixed "(") :: ps ++ [.token (.fixed ")")] else ps

/-- What an operator between its operands asks of the left one. -/
def leftLeast (binding : Nat × Bool) : Nat := if binding.2 then binding.1 + 1 else binding.1

def rightLeast (binding : Nat × Bool) : Nat := if binding.2 then binding.1 else binding.1 + 1

/-- An operator between its operands, each given by how it binds and by its pieces. -/
def between (binding : Nat × Bool) (op : String) (left right : Nat × List Piece) : List Piece :=
  inPlace (leftLeast binding) left.1 left.2 ++ [.blank, .token (.fixed op), .blank] ++
    inPlace (rightLeast binding) right.1 right.2

def matchBinding : Nat × Bool := (matchPrec, true)

namespace OpExpr

def prec : OpExpr → Nat
  | var _ => primary
  | integer _ => primary
  | binary op _ _ => (binaryPrec op).1
  | unary _ _ => unaryPrec
  | match_ _ _ => matchPrec
  | catch_ _ => catchPrec

def pieces : OpExpr → List Piece
  | var name => [.token (.var name)]
  | integer n => [.token (.integer n)]
  | binary op left right =>
    between (binaryPrec op) op (left.prec, left.pieces) (right.prec, right.pieces)
  | unary op arg =>
    .token (.fixed op) :: (if op.1 ∈ signs then [] else [.blank]) ++
      inPlace unaryPrec arg.prec arg.pieces
  | match_ pattern value =>
    between matchBinding "=" (pattern.prec, pattern.pieces) (value.prec, value.pieces)
  | catch_ inner => .token (.fixed "catch") :: .blank :: inner.pieces

def text (e : OpExpr) : List Char := e.pieces.flatMap Piece.chars

def tokens (e : OpExpr) : List Token := e.pieces.filterMap Piece.token?

/-- The text in a place that asks for `least`. -/
def textAt (e : OpExpr) (least : Nat) : List Char :=
  if e.prec < least then '(' :: e.text ++ [')'] else e.text

def tokensAt (e : OpExpr) (least : Nat) : List Token :=
  if e.prec < least then .fixed "(" :: e.tokens ++ [.fixed ")"] else e.tokens

def toExpr : OpExpr → Expr
  | var name => .var name
  | integer n => .literal (.integer n)
  | binary op left right => .binary op left.toExpr right.toExpr
  | unary op arg => .unary op arg.toExpr
  | match_ pattern value => .match_ pattern.toExpr value.toExpr
  | catch_ inner => .catch_ inner.toExpr

/-! ### Tokens and text of each kind of expression -/

theorem flatMap_inPlace (e : OpExpr) (least : Nat) :
    (inPlace least e.prec e.pieces).flatMap Piece.chars = e.textAt least := by
  unfold inPlace textAt
  split
  · simp [text, Piece.chars, Token.chars]
  · rfl

theorem filterMap_inPlace (e : OpExpr) (least : Nat) :
    (inPlace least e.prec e.pieces).filterMap Piece.token? = e.tokensAt least := by
  unfold inPlace tokensAt
  split
  · simp [tokens, Piece.token?]
  · rfl

theorem text_between (binding : Nat × Bool) (op : String) (l r : OpExpr) :
    (between binding op (l.prec, l.pieces) (r.prec, r.pieces)).flatMap Piece.chars =
      l.textAt (leftLeast binding) ++ ' ' :: op.toList ++ ' ' :: r.textAt (rightLeast binding) := by
  simp [between, flatMap_inPlace, Piece.chars, Token.chars]

theorem tokens_between (binding : Nat × Bool) (op : String) (l r : OpExpr) :
    (between binding op (l.prec, l.pieces) (r.prec, r.pieces)).filterMap Piece.token? =
      l.tokensAt (leftLeast binding) ++ .fixed op :: r.tokensAt (rightLeast binding) := by
  rw [between, List.filterMap_append, List.filterMap_append, filterMap_inPlace, filterMap_inPlace,
    List.append_assoc]
  rfl

theorem text_unary (op : UnaryOp) (arg : OpExpr) : (unary op arg).text =
    op.1.toList ++ (if op.1 ∈ signs then [] else [' ']) ++ arg.textAt unaryPrec := by
  rw [text, pieces, List.flatMap_append, flatMap_inPlace, List.flatMap_cons]
  split <;> rfl

theorem tokens_unary (op : UnaryOp) (arg : OpExpr) :
    (unary op arg).tokens = .fixed op :: arg.tokensAt unaryPrec := by
  rw [tokens, pieces, List.filterMap_append, filterMap_inPlace]
  split <;> rfl

theorem text_catch (inner : OpExpr) : (catch_ inner).text = "catch ".toList ++ inner.text := by
  simp [text, pieces, Piece.chars, Token.chars]

theorem tokens_catch (inner : OpExpr) :
    (catch_ inner).tokens = .fixed "catch" :: inner.tokens := rfl

end OpExpr

/-! ### What printing writes -/

theorem readExpr_of_represents {t : Term} {e : OpExpr} (h : Represents t e) :
    readExpr t = e.toExpr := by
  induction h with
  | var place name => rfl
  | integer place n => rfl
  | binary place op hl hr ihl ihr =>
    change Expr.binary op (readExpr _) (readExpr _) = _
    rw [ihl, ihr]
    rfl
  | unary place op ha ih =>
    change Expr.unary op (readExpr _) = _
    rw [ih]
    rfl
  | match_ place hp hv ihp ihv =>
    change Expr.match_ (readExpr _) (readExpr _) = _
    rw [ihp, ihv]
    rfl
  | catch_ place hi ih =>
    change Expr.catch_ (readExpr _) = _
    rw [ih]
    rfl

theorem unary_blank {op : String} (h : op ∈ unaryOps) :
    (if op.toList.all isAlphabetic then [' '] else []) = if op ∈ signs then [] else [' '] := by
  have hall : ∀ op ∈ unaryOps,
      (if op.toList.all isAlphabetic then [' '] else []) = if op ∈ signs then [] else [' '] := by
    decide
  exact hall op h

/-- Printing an expression gives its text and how it binds. -/
structure Printed.Shows (p : Printed) (e : OpExpr) : Prop where
  text : p.text = e.text
  prec : p.prec = e.prec

theorem Printed.Shows.atLeast {p : Printed} {e : OpExpr} (h : p.Shows e) (least : Nat) :
    p.atLeast least = e.textAt least := by
  unfold Printed.atLeast OpExpr.textAt
  rw [h.text, h.prec]
  rfl

theorem shows_printed (e : OpExpr) : (printed e.toExpr).Shows e := by
  induction e with
  | var name => exact ⟨(List.append_nil _).symm, rfl⟩
  | integer n => exact ⟨(List.append_nil _).symm, rfl⟩
  | binary op l r ihl ihr =>
    refine ⟨?_, rfl⟩
    change (binaryPrinted op (printed l.toExpr) (printed r.toExpr)).text = _
    rw [OpExpr.text, OpExpr.pieces, OpExpr.text_between, ← ihl.atLeast, ← ihr.atLeast]
    cases hbinding : (binaryPrec op).2 with
    | true => simp [binaryPrinted, Printed.ofText, leftLeast, rightLeast, hbinding]
    | false => simp [binaryPrinted, Printed.ofText, leftLeast, rightLeast, hbinding]
  | unary op a ih =>
    refine ⟨?_, rfl⟩
    change op.1.toList ++ (if op.1.toList.all isAlphabetic then [' '] else []) ++
      (printed a.toExpr).atLeast unaryPrec = _
    rw [OpExpr.text_unary, unary_blank op.2, ih.atLeast]
  | match_ p v ihp ihv =>
    refine ⟨?_, rfl⟩
    change (matchPrinted " = " (printed p.toExpr) (printed v.toExpr)).text = _
    rw [OpExpr.text, OpExpr.pieces, OpExpr.text_between, ← ihp.atLeast, ← ihv.atLeast]
    simp [matchPrinted, Printed.ofText, leftLeast, rightLeast, matchBinding]
  | catch_ i ih =>
    refine ⟨?_, rfl⟩
    change "catch ".toList ++ (printed i.toExpr).text = _
    rw [OpExpr.text_catch, ih.text]

/-- The text of an expression is the spellings of its tokens in order, with blanks between them. -/
theorem exprChars_eq {t : Term} {e : OpExpr} (h : Represents t e) : exprChars t = e.text := by
  rw [exprChars, readExpr_of_represents h]
  exact (shows_printed e).text

end BeamScope.AbstractCode
