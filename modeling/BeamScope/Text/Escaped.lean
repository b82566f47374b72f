import BeamScope.Text.Digits
import BeamScope.Text.Extending
import BeamScope.Text.Unprintable

/-!
# Quoted program text

A string written between double quotes such that it shows one visible character, or one escape,
for each of its characters: the form in which chunk identifiers appear in messages and in which
mnemonics and documentation appear in a generated table.
-/

namespace BeamScope.Text

/-- `\u` and the code point in braces. -/
def codePointEscape (c : Char) : List Char :=
  ['\\', 'u', '\x7b'] ++ hexDigits c.toNat ++ ['\x7d']

def quotedChar (c : Char) : List Char :=
  if c = '\x00' then ['\\', '0']
  else if c = '\t' then ['\\', 't']
  else if c = '\r' then ['\\', 'r']
  else if c = '\n' then ['\\', 'n']
  else if c = '"' then ['\\', '"']
  else if c = '\\' then ['\\', '\\']
  else if isExtending c then codePointEscape c
  else if isUnprintable c then codePointEscape c
  else [c]

def quoted (s : String) : String :=
  String.ofList ('"' :: s.toList.flatMap quotedChar ++ ['"'])

end BeamScope.Text
