import PathQuery.Text.Classes

/-!
# Quoted characters and texts

Diagnostics show characters and texts between quotes, with the quote itself, the backslash, the
common controls and everything that would not be seen written as escapes.
-/

namespace PathQuery

/-- The code point in lower case hexadecimal between braces, after `\u`. -/
def codePointEscape (c : Char) : List Char :=
  '\\' :: 'u' :: '\x7b' :: (Nat.toDigits 16 c.toNat ++ ['\x7d'])

def quotedChar (quote c : Char) : List Char :=
  if c = '\x00' then ['\\', '0']
  else if c = '\t' then ['\\', 't']
  else if c = '\r' then ['\\', 'r']
  else if c = '\n' then ['\\', 'n']
  else if c = '\\' ∨ c = quote then ['\\', c]
  else if isShown c then [c]
  else codePointEscape c

/-- A character between single quotes. -/
def showChar (c : Char) : String :=
  String.ofList ('\'' :: (quotedChar '\'' c ++ ['\'']))

/-- A text between double quotes. -/
def showText (s : String) : String :=
  String.ofList ('"' :: (s.toList.flatMap (quotedChar '"') ++ ['"']))

end PathQuery
