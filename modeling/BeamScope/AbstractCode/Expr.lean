import BeamScope.Term

/-!
# Expressions

The expressions of abstract code, read from the terms that represent them. A term that represents
none is read as `unknown`, so that reading never fails; places in the source are left out.
-/

namespace BeamScope.AbstractCode

mutual

inductive Expr where
  /-- Anything without a rule. -/
  | unknown
  | var (name : String)
  /-- An integer, a floating-point number or an atom. -/
  | literal (value : Term)
  | char (value : Term)
  | string (value : Term)
  | nil
  | cons (head tail : Expr)
  | tuple (items : List Expr)
  | map (assocs : List Expr)
  | mapUpdate (base : Expr) (assocs : List Expr)
  | assoc (key value : Expr)
  | exactAssoc (key value : Expr)
  | bin (segments : List Expr)
  /-- A segment of a binary; without a size it has the size of its type. -/
  | segment (value : Expr) (size : Option Expr) (types : List Term)
  | match_ (pattern value : Expr)
  | maybeMatch (pattern value : Expr)
  | binary (op : String) (left right : Expr)
  | unary (op : String) (arg : Expr)
  | call (callee : Expr) (args : List Expr)
  | remote (module function : Expr)
  | case_ (subject : Expr) (clauses : List Clause)
  | if_ (clauses : List Clause)
  | receive (clauses : List Clause)
  | receiveAfter (clauses : List Clause) (timeout : Expr) (body : List Expr)
  | try_ (body : List Expr) (cases catches : List Clause) (after : List Expr)
  | catch_ (inner : Expr)
  | block (body : List Expr)
  | listComp (item : Expr) (qualifiers : List Expr)
  | binComp (item : Expr) (qualifiers : List Expr)
  | mapComp (item : Expr) (qualifiers : List Expr)
  | generator (pattern source : Expr)
  | binGenerator (pattern source : Expr)
  | localFun (name arity : Term)
  | remoteFun (module name arity : Expr)
  | fun_ (clauses : List Clause)
  | namedFun (name : String) (clauses : List Clause)
  | record (name : Term) (fields : List Expr)
  | recordUpdate (base : Expr) (name : Term) (fields : List Expr)
  | recordField (field value : Expr)
  | recordAccess (base : Expr) (name : Term) (field : Expr)
  | recordIndex (name : Term) (field : Expr)

/-- A clause of a function, a case or the like. -/
inductive Clause where
  | unknown
  /-- Guards are alternatives, each a conjunction of tests. -/
  | clause (patterns : List Expr) (guards : List (List Expr)) (body : List Expr)

end

def varName (t : Term) : String := (t.asAtom?).getD "_"

def opName (t : Term) : String := (t.asAtom?).getD "?"

def segmentTypes (t : Term) : List Term := (t.asList?).getD []

/-- A part of the name of a function elsewhere: the expression read from a tuple, or in older code a
constant. -/
def funPart (t : Term) (read : Expr) : Expr :=
  match t with
  | .tuple _ => read
  | _ => .literal t

mutual

def readExpr : Term → Expr
  | .tuple (.atom kind :: args) =>
    match args with
    | [_] => if kind == "nil" then .nil else .unknown
    | [_, a] =>
      if kind == "var" then .var (varName a)
      else if kind == "integer" || kind == "float" || kind == "atom" then .literal a
      else if kind == "char" then .char a
      else if kind == "string" then .string a
      else if kind == "tuple" then .tuple (readSequence a)
      else if kind == "map" then .map (readSequence a)
      else if kind == "bin" then .bin (readSequence a)
      else if kind == "if" then .if_ (readClauses a)
      else if kind == "receive" then .receive (readClauses a)
      else if kind == "catch" then .catch_ (readExpr a)
      else if kind == "block" then .block (readSequence a)
      else if kind == "fun" then readFun a
      else .unknown
    | [_, a, b] =>
      if kind == "cons" then .cons (readExpr a) (readExpr b)
      else if kind == "map" then .mapUpdate (readExpr a) (readSequence b)
      else if kind == "map_field_assoc" then .assoc (readExpr a) (readExpr b)
      else if kind == "map_field_exact" then .exactAssoc (readExpr a) (readExpr b)
      else if kind == "match" then .match_ (readExpr a) (readExpr b)
      else if kind == "maybe_match" then .maybeMatch (readExpr a) (readExpr b)
      else if kind == "op" then .unary (opName a) (readExpr b)
      else if kind == "call" then .call (readExpr a) (readSequence b)
      else if kind == "remote" then .remote (readExpr a) (readExpr b)
      else if kind == "case" then .case_ (readExpr a) (readClauses b)
      else if kind == "lc" then .listComp (readExpr a) (readSequence b)
      else if kind == "bc" then .binComp (readExpr a) (readSequence b)
      else if kind == "mc" then .mapComp (readExpr a) (readSequence b)
      else if kind == "generate" || kind == "m_generate" then .generator (readExpr a) (readExpr b)
      else if kind == "b_generate" then .binGenerator (readExpr a) (readExpr b)
      else if kind == "named_fun" then .namedFun (varName a) (readClauses b)
      else if kind == "record" then .record a (readSequence b)
      else if kind == "record_field" then .recordField (readExpr a) (readExpr b)
      else if kind == "record_index" then .recordIndex a (readExpr b)
      else .unknown
    | [_, a, b, c] =>
      if kind == "bin_element" then
        .segment (readExpr a) (if b.isAtom "default" then none else some (readExpr b))
          (segmentTypes c)
      else if kind == "op" then .binary (opName a) (readExpr b) (readExpr c)
      else if kind == "receive" then .receiveAfter (readClauses a) (readExpr b) (readSequence c)
      else if kind == "record" then .recordUpdate (readExpr a) b (readSequence c)
      else if kind == "record_field" then .recordAccess (readExpr a) b (readExpr c)
      else .unknown
    | [_, a, b, c, d] =>
      if kind == "try" then .try_ (readSequence a) (readClauses b) (readClauses c) (readListed d)
      else .unknown
    | _ => .unknown
  | _ => .unknown

/-- The expressions that a list of terms represents; what is no list is one unknown expression. -/
def readSequence : Term → List Expr
  | .list items => readAll items
  | .nil => []
  | _ => [.unknown]

/-- The expressions that a list of terms represents; what is no list has none. -/
def readListed : Term → List Expr
  | .list items => readAll items
  | _ => []

/-- Each of a list of terms as an expression. -/
def readAll : List Term → List Expr
  | [] => []
  | t :: ts => readExpr t :: readAll ts

/-- A function value: one that is named, here or elsewhere, or one that is written out. -/
def readFun : Term → Expr
  | .tuple [.atom kind, a] => if kind == "clauses" then .fun_ (readClauses a) else .unknown
  | .tuple [.atom kind, a, b] => if kind == "function" then .localFun a b else .unknown
  | .tuple [.atom kind, a, b, c] =>
    if kind == "function" then
      .remoteFun (funPart a (readExpr a)) (funPart b (readExpr b)) (funPart c (readExpr c))
    else .unknown
  | _ => .unknown

def readClauses : Term → List Clause
  | .list items => readClauseList items
  | _ => []

/-- Each of a list of terms as a clause. -/
def readClauseList : List Term → List Clause
  | [] => []
  | t :: ts => readClause t :: readClauseList ts

def readClause : Term → Clause
  | .tuple [_, _, patterns, guards, body] =>
    .clause (readSequence patterns) (readGuards guards) (readSequence body)
  | _ => .unknown

def readGuards : Term → List (List Expr)
  | .list items => readSequences items
  | _ => []

/-- Each of a list of terms as a sequence of expressions. -/
def readSequences : List Term → List (List Expr)
  | [] => []
  | t :: ts => readSequence t :: readSequences ts

end

end BeamScope.AbstractCode
