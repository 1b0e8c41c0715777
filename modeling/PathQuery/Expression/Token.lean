import PathQuery.Value.Scalar

/-!
# Tokens

An expression is written in tokens: literals, names, names that open a call, symbols, and the blanks
between them. A token keeps the text it was read from and the byte it starts at.
-/

namespace PathQuery

/-! ### Symbols -/

inductive Symbol where
  | dollar
  | atSign
  | dot
  | dotDot
  | dotDotStar
  | star
  | starStar
  | leftParen
  | rightParen
  | leftBracket
  | rightBracket
  | comma
  | question
  | colon
  | plus
  | minus
  | slash
  | percent
  | bang
  | equal
  | notEqual
  | same
  | notSame
  | less
  | lessEqual
  | greater
  | greaterEqual
  | and
  | or
  | bitAnd
  | bitOr
  | caret
  deriving DecidableEq, Repr

namespace Symbol

def text : Symbol → String
  | dollar => "$"
  | atSign => "@"
  | dot => "."
  | dotDot => ".."
  | dotDotStar => "..*"
  | star => "*"
  | starStar => "**"
  | leftParen => "("
  | rightParen => ")"
  | leftBracket => "["
  | rightBracket => "]"
  | comma => ","
  | question => "?"
  | colon => ":"
  | plus => "+"
  | minus => "-"
  | slash => "/"
  | percent => "%"
  | bang => "!"
  | equal => "=="
  | notEqual => "!="
  | same => "==="
  | notSame => "!=="
  | less => "<"
  | lessEqual => "<="
  | greater => ">"
  | greaterEqual => ">="
  | and => "&&"
  | or => "||"
  | bitAnd => "&"
  | bitOr => "|"
  | caret => "^"

/-- Every spelling with its symbol, no spelling after a beginning of it. A lone `=` is `==`. -/
def spellings : List (List Char × Symbol) :=
  [(['=', '=', '='], same), (['!', '=', '='], notSame), (['.', '.', '*'], dotDotStar),
   (['=', '='], equal), (['!', '='], notEqual), (['<', '='], lessEqual), (['>', '='], greaterEqual),
   (['&', '&'], and), (['|', '|'], or), (['*', '*'], starStar), (['.', '.'], dotDot),
   (['='], equal), (['<'], less), (['>'], greater), (['&'], bitAnd), (['|'], bitOr),
   (['^'], caret), (['!'], bang), (['+'], plus), (['-'], minus), (['*'], star), (['/'], slash),
   (['%'], percent), (['?'], question), ([':'], colon), ([','], comma), (['.'], dot),
   (['$'], dollar), (['@'], atSign), (['('], leftParen), ([')'], rightParen),
   (['['], leftBracket), ([']'], rightBracket)]

end Symbol

/-! ### Tokens -/

inductive TokenKind where
  | whitespace
  | string (s : String)
  | integer (i : Int64)
  | real (r : Float)
  | name (n : String)
  /-- A name with the parenthesis that follows it at once. -/
  | function (n : String)
  | symbol (s : Symbol)
  deriving DecidableEq

namespace TokenKind

def describe : TokenKind → String
  | whitespace => "whitespace"
  | string s => "string " ++ showText s
  | integer i => "integer " ++ intText i
  | real r => "number " ++ RealStyle.plainValue.text r
  | name n => "name `" ++ n ++ "`"
  | function n => "function `" ++ n ++ "(`"
  | symbol s => "`" ++ s.text ++ "`"

end TokenKind

/-- A token with the byte it starts at and the text it covers. -/
structure Token where
  kind : TokenKind
  offset : Nat
  text : String
  deriving DecidableEq

/-! ### Lexemes -/

/-- A token other than blanks, with whether blanks stand before it. -/
structure Lexeme where
  kind : TokenKind
  offset : Nat
  spaced : Bool
  deriving DecidableEq

/-- The lexemes of a run of tokens that has blanks before it or not. -/
def Lexeme.ofTokens : Bool → List Token → List Lexeme
  | _, [] => []
  | spaced, t :: ts =>
    if t.kind = .whitespace then ofTokens true ts
    else ⟨t.kind, t.offset, spaced⟩ :: ofTokens false ts

end PathQuery
