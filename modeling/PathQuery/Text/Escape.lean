import PathQuery.Text.Classes

/-!
# Markup escapes

Two ways of putting text into markup. HTML escaping replaces the five characters that could open or
close something and keeps the rest; XML encoding also brings the text down to ASCII.
-/

namespace PathQuery

/-! ### HTML -/

def htmlChar (c : Char) : List Char :=
  if c = '&' then "&amp;".toList
  else if c = '<' then "&lt;".toList
  else if c = '>' then "&gt;".toList
  else if c = '"' then "&quot;".toList
  else if c = '\'' then "&#39;".toList
  else [c]

def isHtmlSpecial (c : Char) : Bool :=
  c = '&' || c = '<' || c = '>' || c = '"' || c = '\''

/-- The text with its markup characters escaped; a text without any is handed back as it is. -/
def escapeHtml (s : String) : String :=
  if s.toList.any isHtmlSpecial then String.ofList (s.toList.flatMap htmlChar) else s

/-! ### XML -/

/-- A character in ASCII: markup characters become entities, quotes too in an attribute; a control
other than tab, line feed and return becomes U+FFFD, and what is not ASCII its number. -/
def xmlChar (inAttribute : Bool) (c : Char) : List Char :=
  if c = '&' then "&amp;".toList
  else if c = '<' then "&lt;".toList
  else if c = '>' then "&gt;".toList
  else if inAttribute && c = '"' then "&quot;".toList
  else if inAttribute && c = '\'' then "&apos;".toList
  else if c = '\t' ∨ c = '\n' ∨ c = '\r' then [c]
  else if isControl c then "&#xfffd;".toList
  else if 128 ≤ c.toNat then '&' :: '#' :: 'x' :: (Nat.toDigits 16 c.toNat ++ [';'])
  else [c]

/-- The text as XML content, or as the value of an attribute. -/
def encodeXml (inAttribute : Bool) (s : String) : String :=
  String.ofList (s.toList.flatMap (xmlChar inAttribute))

end PathQuery
