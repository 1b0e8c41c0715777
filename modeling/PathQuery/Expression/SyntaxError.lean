import PathQuery.Expression.Token
import PathQuery.Text.Offset

/-!
# Syntax errors

An expression that cannot be compiled is refused for one cause at one place. The place is a byte of
the expression; the error also shows the characters that follow it.
-/

namespace PathQuery

inductive Expectation where
  | expression
  | path
  | nameAfterDot
  | endOfSlice
  | symbol (s : Symbol)
  deriving DecidableEq, Repr

def Expectation.describe : Expectation → String
  | expression => "an expression"
  | path => "a path"
  | nameAfterDot => "a name after `.`"
  | endOfSlice => "`]` to close the slice"
  | symbol s => (TokenKind.symbol s).describe

inductive SyntaxCause where
  | unexpectedCharacter (c : Char)
  | danglingEscape
  | unterminatedString
  | invalidEscape
  | empty
  | expected (what : Expectation) (found : Option TokenKind)
  | trailing (found : TokenKind)
  | zeroStep
  | unknownFunction (name : String)
  /-- A function does not take its arguments, for a reason of its own. -/
  | refused (reason : String)
  deriving DecidableEq

def SyntaxCause.message : SyntaxCause → String
  | unexpectedCharacter c => "unexpected character " ++ showChar c
  | danglingEscape => "dangling escape in name"
  | unterminatedString => "unterminated string"
  | invalidEscape => "invalid \\u escape"
  | empty => "empty expression"
  | expected what found =>
    "expected " ++ what.describe ++ ", found " ++
      (found.map TokenKind.describe).getD "end of expression"
  | trailing found => "expected end of expression, found " ++ found.describe
  | zeroStep => "slice step cannot be zero"
  | unknownFunction name => "unknown function `" ++ name ++ "`"
  | refused reason => reason

/-- A cause and the byte it is found at. -/
structure Fault where
  cause : SyntaxCause
  offset : Nat
  deriving DecidableEq

/-- A fault together with the text that follows it. -/
structure SyntaxError where
  cause : SyntaxCause
  offset : Nat
  /-- Up to sixteen characters from the place on. -/
  near : String
  deriving DecidableEq

namespace SyntaxError

def ofFault (source : List Char) (fault : Fault) : SyntaxError where
  cause := fault.cause
  offset := fault.offset
  near := String.ofList (((fromByte? fault.offset source).getD []).take 16)

def message (e : SyntaxError) : String := e.cause.message

def display (e : SyntaxError) : String :=
  e.message ++ " at offset " ++ toString e.offset ++ " (near `" ++ e.near ++ "`)"

end SyntaxError
end PathQuery
