import BeamScope.AbstractCode.Printer

/-!
# Forms in source form

The forms of a module, each as fragments of text with the line on which they start. An attribute is
one fragment. A clause of a function has one fragment for its head and for the expressions on the
same line, and another for each later line on which an expression starts.
-/

namespace BeamScope.AbstractCode

open Text

/-- A piece of text and the line on which it starts. -/
structure Fragment where
  line : Nat
  text : String
  deriving Repr, DecidableEq

/-- A line number; what is none is line 0. -/
def lineNumber (v : Int) : Nat := if 0 ≤ v ∧ isUInt32 v.toNat then v.toNat else 0

mutual

/-- The line that an annotation gives: a number, a number with a column, or either under the key
`location` of a list. Any other gives line 0. -/
def annotationLine : Term → Nat
  | .integer v => lineNumber v
  | .tuple (.integer v :: _) => lineNumber v
  | .list props => (locationLine props).getD 0
  | _ => 0

def locationLine : List Term → Option Nat
  | [] => none
  | .tuple [key, loc] :: rest =>
    if key.isAtom "location" then some (annotationLine loc) else locationLine rest
  | _ :: rest => locationLine rest

end

def exprLine : Term → Nat
  | .tuple (_ :: anno :: _) => annotationLine anno
  | _ => 0

def sequenceChars (t : Term) : List Char := commas (printedAll (readSequence t))

/-- `name/arity` of each pair that is one. -/
def nameArities (t : Term) : List Char :=
  let one : Term → Option (List Char)
    | .tuple [.atom f, .integer a] => some (atomChars f ++ ['/'] ++ intChars a)
    | _ => none
  join [',', ' '] (((t.asList?).getD []).filterMap one)

/-- A field of a record, without its type. -/
def untypedField : Term → Term
  | .tuple [kind, inner, type] =>
    if kind.isAtom "typed_record_field" then inner else .tuple [kind, inner, type]
  | t => t

/-- A field of a record: its name, and its default if it has one. -/
def recordFieldChars (t : Term) : List Char :=
  match untypedField t with
  | .tuple [_, _, name] => exprChars name
  | .tuple [_, _, name, default] => exprChars name ++ " = ".toList ++ exprChars default
  | _ => unknownText

def hiddenAttributes : List String := ["file", "spec", "type", "opaque", "callback"]

/-- The text of an attribute, if it is shown. -/
def attributeChars (name : String) (value : Term) : Option (List Char) :=
  if hiddenAttributes.contains name then none
  else if name == "export" || name == "export_type" then
    some (['-'] ++ name.toList ++ "([".toList ++ nameArities value ++ "]).".toList)
  else if name == "import" then
    match value with
    | .tuple [module, funs] =>
      some ("-import(".toList ++ literalChars module ++ ", [".toList ++ nameArities funs ++
        "]).".toList)
    | _ => none
  else if name == "record" then
    match value with
    | .tuple [record, fields] =>
      some ("-record(".toList ++ literalChars record ++ ", \x7b".toList ++
        join [',', ' '] (((fields.asList?).getD []).map recordFieldChars) ++ "\x7d).".toList)
    | _ => none
  else some (['-'] ++ atomChars name ++ ['('] ++ literalChars value ++ ").".toList)

/-- The head of a function clause up to its arrow. -/
def clauseHead (name : List Char) (patterns guards : Term) : List Char :=
  name ++ ['('] ++ sequenceChars patterns ++ [')'] ++
    whenGuards (printedGuards (readGuards guards)) ++ " ->".toList

/-- The expressions of a body behind a fragment that was begun; an expression on a later line
begins another. `closing` stands behind the last expression. -/
def bodyFragments (closing : Char) : (line : Nat) → (text : List Char) → List Term → List Fragment
  | line, text, [] => [⟨line, String.ofList text⟩]
  | line, text, e :: es =>
    let written := exprChars e ++ [if es.isEmpty then closing else ',']
    if exprLine e ≤ line then bodyFragments closing line (text ++ ' ' :: written) es
    else
      ⟨line, String.ofList text⟩ ::
        bodyFragments closing (exprLine e) ("    ".toList ++ written) es

def clauseFragments (name : List Char) (closing : Char) : Term → List Fragment
  | .tuple [_, anno, patterns, guards, body] =>
    bodyFragments closing (annotationLine anno) (clauseHead name patterns guards)
      ((body.asList?).getD [])
  | _ => []

/-- The fragments of the clauses of a function; the last ends with a full stop. -/
def functionFragments (name : List Char) : List Term → List Fragment
  | [] => []
  | c :: cs => clauseFragments name (if cs.isEmpty then '.' else ';') c ++ functionFragments name cs

/-- The fragments of a form; one without a rule has none. -/
def formFragments : Term → List Fragment
  | .tuple [.atom kind, anno, name, value] =>
    if kind == "attribute" then
      match name.asAtom?.bind fun n => attributeChars n value with
      | some text => [⟨annotationLine anno, String.ofList text⟩]
      | none => []
    else []
  | .tuple [.atom kind, _, name, _, clauses] =>
    if kind == "function" then
      functionFragments (atomChars ((name.asAtom?).getD "?")) ((clauses.asList?).getD [])
    else []
  | _ => []

def fragments (forms : List Term) : List Fragment := forms.flatMap formFragments

end BeamScope.AbstractCode
