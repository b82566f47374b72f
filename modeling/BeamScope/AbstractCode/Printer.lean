import BeamScope.AbstractCode.Expr
import BeamScope.AbstractCode.Literal
import BeamScope.Text.Alphabetic

/-!
# Expressions in source form

Expressions are written on one line. Each has a precedence, and one that binds looser than its place
allows is put in parentheses. What is written of an expression can depend on where it stands: the
tail of a list goes on inside its brackets, and an exception pattern is written with colons. All of
these are computed together, so that printing is one pass over the expression.
-/

namespace BeamScope.AbstractCode

open Text

/-- How tightly an expression binds that never needs parentheses. -/
def primary : Nat := 10

/-- How tightly an operator before its operand binds. -/
def unaryPrec : Nat := 8

def matchPrec : Nat := 1

def catchPrec : Nat := 0

/-- How tightly an operator between its operands binds, and whether it groups to the right. What is
not listed is a comparison. -/
def binaryPrec (op : String) : Nat × Bool :=
  if op == "=" || op == "!" then (1, true)
  else if op == "orelse" then (2, true)
  else if op == "andalso" then (3, true)
  else if op == "++" || op == "--" then (5, true)
  else if ["+", "-", "bor", "bxor", "bsl", "bsr", "or", "xor"].contains op then (6, false)
  else if ["*", "/", "div", "rem", "band", "and"].contains op then (7, false)
  else (4, false)

structure Printed where
  text : List Char
  /-- How tightly the text binds. -/
  prec : Nat
  /-- The text as the rest of a list that was begun, up to the closing bracket. -/
  asTail : List Char
  /-- The text as an exception pattern, for a triple. -/
  caught : Option (List Char)

/-- A text that binds with `prec` and has no other forms. -/
def Printed.ofText (prec : Nat) (text : List Char) : Printed :=
  ⟨text, prec, [' ', '|', ' '] ++ text ++ [']'], none⟩

def Printed.whole (text : List Char) : Printed := .ofText primary text

/-- The text in a place that asks for the precedence `least`. -/
def Printed.atLeast (p : Printed) (least : Nat) : List Char :=
  if p.prec < least then ['('] ++ p.text ++ [')'] else p.text

def commas (ps : List Printed) : List Char := join [',', ' '] (ps.map Printed.text)

/-- Texts with commas, between an opening and a closing text. -/
def bracketed (opening closing : String) (ps : List Printed) : List Char :=
  opening.toList ++ commas ps ++ closing.toList

/-- What stands before the arrow of a clause. -/
inductive Head where
  /-- Patterns and guards. -/
  | patterns
  /-- Guards alone. -/
  | guards
  /-- Arguments in parentheses. -/
  | arguments
  /-- A name and arguments in parentheses. -/
  | named (name : String)
  /-- Class, reason and stack of an exception. -/
  | exception

/-- The guards of a clause behind its patterns. -/
def whenGuards (guards : List (List Char)) : List Char :=
  if guards.isEmpty then [] else " when ".toList ++ join [';', ' '] guards

/-- The first pattern as an exception pattern, or all patterns as they are. -/
def caughtPatterns (patterns : List Printed) : List Char :=
  match patterns.head?.bind Printed.caught with
  | some text => text
  | none => commas patterns

def clauseText (head : Head) (patterns : List Printed) (guards : List (List Char))
    (body : List Printed) : List Char :=
  let front :=
    match head with
    | .patterns => commas patterns ++ whenGuards guards
    | .guards => join [';', ' '] guards
    | .arguments => bracketed "(" ")" patterns ++ whenGuards guards
    | .named name => name.toList ++ bracketed "(" ")" patterns ++ whenGuards guards
    | .exception => caughtPatterns patterns ++ whenGuards guards
  front ++ " -> ".toList ++ commas body

def semicolons (clauses : List (List Char)) : List Char := join [';', ' '] clauses

/-- An exception pattern; a stack that is not looked at is left out. -/
def exceptionText (cls reason stack : Printed) : List Char :=
  cls.text ++ [':'] ++ reason.text ++ (if stack.text = ['_'] then [] else ':' :: stack.text)

/-- A triple has a form as an exception pattern. -/
def tuplePrinted (items : List Printed) : Printed :=
  let whole := Printed.whole (bracketed "\x7b" "\x7d" items)
  match items with
  | [cls, reason, stack] => { whole with caught := some (exceptionText cls reason stack) }
  | _ => whole

def binaryPrinted (op : String) (left right : Printed) : Printed :=
  let (prec, rightward) := binaryPrec op
  let (l, r) := if rightward then (prec + 1, prec) else (prec, prec + 1)
  .ofText prec (left.atLeast l ++ [' '] ++ op.toList ++ [' '] ++ right.atLeast r)

/-- An operator and its operand; a word is set apart. -/
def unaryPrinted (op : String) (arg : Printed) : Printed :=
  let gap := if op.toList.all isAlphabetic then [' '] else []
  .ofText unaryPrec (op.toList ++ gap ++ arg.atLeast unaryPrec)

/-- A pattern, a match operator and a value. -/
def matchPrinted (op : String) (pattern value : Printed) : Printed :=
  .ofText matchPrec (pattern.atLeast (matchPrec + 1) ++ op.toList ++ value.atLeast matchPrec)

def segmentText (value : Printed) (size : Option Printed) (types : List Term) : List Char :=
  let sizeText :=
    match size with
    | some size => ':' :: size.atLeast primary
    | none => []
  let typeText := if types.isEmpty then [] else '/' :: join ['-'] (types.map typeSpecChars)
  value.atLeast primary ++ sizeText ++ typeText

/-- A part of an expression that is left out when it is empty. -/
def part (word : String) (text : List Char) (present : Bool) : List Char :=
  if present then word.toList ++ text else []

mutual

def printed : Expr → Printed
  | .unknown => .whole unknownText
  | .var name => .whole name.toList
  | .literal value => .whole (literalChars value)
  | .char value => .whole (charChars value)
  | .string value => .whole (stringTermChars value)
  | .nil => { Printed.whole ['[', ']'] with asTail := [']'] }
  | .cons head tail =>
    let h := (printed head).text
    let t := (printed tail).asTail
    { Printed.whole ('[' :: h ++ t) with asTail := [',', ' '] ++ h ++ t }
  | .tuple items => tuplePrinted (printedAll items)
  | .map assocs => .whole (bracketed "#\x7b" "\x7d" (printedAll assocs))
  | .mapUpdate base assocs =>
    .whole ((printed base).atLeast primary ++ bracketed "#\x7b" "\x7d" (printedAll assocs))
  | .assoc key value => .whole ((printed key).text ++ " => ".toList ++ (printed value).text)
  | .exactAssoc key value => .whole ((printed key).text ++ " := ".toList ++ (printed value).text)
  | .bin segments => .whole (bracketed "<<" ">>" (printedAll segments))
  | .segment value size types => .whole (segmentText (printed value) (printedOption size) types)
  | .match_ pattern value => matchPrinted " = " (printed pattern) (printed value)
  | .maybeMatch pattern value => matchPrinted " ?= " (printed pattern) (printed value)
  | .binary op left right => binaryPrinted op (printed left) (printed right)
  | .unary op arg => unaryPrinted op (printed arg)
  | .call callee args =>
    .whole ((printed callee).atLeast primary ++ bracketed "(" ")" (printedAll args))
  | .remote module function =>
    .whole ((printed module).atLeast primary ++ [':'] ++ (printed function).atLeast primary)
  | .case_ subject clauses =>
    .whole ("case ".toList ++ (printed subject).text ++ " of ".toList ++
      semicolons (printedClauses .patterns clauses) ++ " end".toList)
  | .if_ clauses =>
    .whole ("if ".toList ++ semicolons (printedClauses .guards clauses) ++ " end".toList)
  | .receive clauses =>
    .whole ("receive ".toList ++ semicolons (printedClauses .patterns clauses) ++ " end".toList)
  | .receiveAfter clauses timeout body =>
    .whole ("receive ".toList ++
      part "" (semicolons (printedClauses .patterns clauses) ++ [' ']) (!clauses.isEmpty) ++
      "after ".toList ++ (printed timeout).text ++ " -> ".toList ++ commas (printedAll body) ++
      " end".toList)
  | .try_ body cases catches after =>
    .whole ("try ".toList ++ commas (printedAll body) ++
      part " of " (semicolons (printedClauses .patterns cases)) (!cases.isEmpty) ++
      part " catch " (semicolons (printedClauses .exception catches)) (!catches.isEmpty) ++
      part " after " (commas (printedAll after)) (!after.isEmpty) ++ " end".toList)
  | .catch_ inner => .ofText catchPrec ("catch ".toList ++ (printed inner).text)
  | .block body => .whole ("begin ".toList ++ commas (printedAll body) ++ " end".toList)
  | .listComp item qualifiers =>
    .whole (['['] ++ (printed item).text ++ " || ".toList ++ commas (printedAll qualifiers) ++
      [']'])
  | .binComp item qualifiers =>
    .whole ("<<".toList ++ (printed item).text ++ " || ".toList ++
      commas (printedAll qualifiers) ++ ">>".toList)
  | .mapComp item qualifiers =>
    .whole ("#\x7b".toList ++ (printed item).text ++ " || ".toList ++
      commas (printedAll qualifiers) ++ ['\x7d'])
  | .generator pattern source =>
    .whole ((printed pattern).text ++ " <- ".toList ++ (printed source).text)
  | .binGenerator pattern source =>
    .whole ((printed pattern).text ++ " <= ".toList ++ (printed source).text)
  | .localFun name arity =>
    .whole ("fun ".toList ++ literalChars name ++ ['/'] ++ literalChars arity)
  | .remoteFun module name arity =>
    .whole ("fun ".toList ++ (printed module).text ++ [':'] ++ (printed name).text ++ ['/'] ++
      (printed arity).text)
  | .fun_ clauses =>
    .whole ("fun ".toList ++ semicolons (printedClauses .arguments clauses) ++ " end".toList)
  | .namedFun name clauses =>
    .whole ("fun ".toList ++ semicolons (printedClauses (.named name) clauses) ++ " end".toList)
  | .record name fields =>
    .whole (['#'] ++ literalChars name ++ bracketed "\x7b" "\x7d" (printedAll fields))
  | .recordUpdate base name fields =>
    .whole ((printed base).atLeast primary ++ ['#'] ++ literalChars name ++
      bracketed "\x7b" "\x7d" (printedAll fields))
  | .recordField field value =>
    .whole ((printed field).text ++ " = ".toList ++ (printed value).text)
  | .recordAccess base name field =>
    .whole ((printed base).atLeast primary ++ ['#'] ++ literalChars name ++ ['.'] ++
      (printed field).text)
  | .recordIndex name field =>
    .whole (['#'] ++ literalChars name ++ ['.'] ++ (printed field).text)

def printedAll : List Expr → List Printed
  | [] => []
  | e :: es => printed e :: printedAll es

def printedOption : Option Expr → Option Printed
  | none => none
  | some e => some (printed e)

def printedGuards : List (List Expr) → List (List Char)
  | [] => []
  | g :: gs => commas (printedAll g) :: printedGuards gs

def printedClauses (head : Head) : List Clause → List (List Char)
  | [] => []
  | c :: cs => printedClause head c :: printedClauses head cs

def printedClause (head : Head) : Clause → List Char
  | .unknown => unknownText
  | .clause patterns guards body =>
    clauseText head (printedAll patterns) (printedGuards guards) (printedAll body)

end

/-- The text of the expression that a term represents. -/
def exprChars (t : Term) : List Char := (printed (readExpr t)).text

end BeamScope.AbstractCode
