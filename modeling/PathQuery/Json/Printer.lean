import PathQuery.Json.Basic
import PathQuery.Number.RealText

/-!
# Writing JSON

The compact text of a value: no blanks, fields in order, and in strings only what must be escaped.
-/

namespace PathQuery
namespace Json

/-- Reals in JSON: plain from `0.00001` up to below `1e16`, an exponent always with its sign, and
null for what JSON has no number for. -/
def realStyle : RealStyle := ⟨.toEven, some (-5, 16), true, true, "null", false, "null"⟩

def stringChar (c : Char) : List Char :=
  if c = '"' then ['\\', '"']
  else if c = '\\' then ['\\', '\\']
  else if c = '\x08' then ['\\', 'b']
  else if c = '\x0c' then ['\\', 'f']
  else if c = '\n' then ['\\', 'n']
  else if c = '\r' then ['\\', 'r']
  else if c = '\t' then ['\\', 't']
  else if c.toNat < 32 then
    '\\' :: 'u' :: '0' :: '0' :: [Nat.digitChar (c.toNat / 16), Nat.digitChar (c.toNat % 16)]
  else [c]

def stringChars (s : String) : List Char :=
  '"' :: (s.toList.flatMap stringChar ++ ['"'])

def numberChars : JsonNumber → List Char
  | .int (.ofNat n) => Nat.toDigits 10 n
  | .int (.negSucc n) => '-' :: Nat.toDigits 10 (n + 1)
  | .real r => (realStyle.text r).toList

mutual

/-- The compact text of a value. -/
def chars : Json → List Char
  | .null => ['n', 'u', 'l', 'l']
  | .bool true => ['t', 'r', 'u', 'e']
  | .bool false => ['f', 'a', 'l', 's', 'e']
  | .number n => numberChars n
  | .string s => stringChars s
  | .array vs => '[' :: (itemsChars true vs ++ [']'])
  | .object fs => '\x7b' :: (fieldsChars true fs ++ ['\x7d'])

def itemsChars (isFirst : Bool) : List Json → List Char
  | [] => []
  | v :: vs => (if isFirst then [] else [',']) ++ v.chars ++ itemsChars false vs

def fieldsChars (isFirst : Bool) : List (String × Json) → List Char
  | [] => []
  | (k, v) :: fs =>
    (if isFirst then [] else [',']) ++ stringChars k ++ ':' :: v.chars ++ fieldsChars false fs

end

def text (v : Json) : String := String.ofList v.chars

end Json
end PathQuery
