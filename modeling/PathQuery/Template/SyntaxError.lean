import PathQuery.Expression.Canonical
import PathQuery.Expression.SyntaxError

/-!
# Syntax errors of templates

A template that cannot be compiled is refused for one cause at one place, which is told as a line and
a column. A cause inside of an expression is that of the expression.
-/

namespace PathQuery

inductive TemplateCause where
  | unclosedTag
  | otherwiseWithExpression
  | misplacedOtherwise
  | nothingToClose
  /-- A closing tag that names other terms than the block it would close. -/
  | wrongClose (closing opening : List Term)
  | namelessInclude
  | emptyTag
  | neverClosed (opening : List Term)
  | expression (cause : SyntaxCause)

def TemplateCause.message : TemplateCause → String
  | unclosedTag => "unclosed tag"
  | otherwiseWithExpression => "`\x7b\x7b:\x7d\x7d` takes no expression"
  | misplacedOtherwise => "`\x7b\x7b:\x7d\x7d` outside of a `\x7b\x7b? \x7d\x7d` block"
  | nothingToClose => "close tag without an open block"
  | wrongClose closing opening =>
    "`\x7b\x7b/ " ++ canonicalText closing ++ " \x7d\x7d` does not close `" ++
      canonicalText opening ++ "`"
  | namelessInclude => "include needs a template name"
  | emptyTag => "empty tag"
  | neverClosed opening => "block `" ++ canonicalText opening ++ "` is never closed"
  | expression cause => cause.message

structure TemplateFault where
  cause : TemplateCause
  offset : Nat

/-- A cause and its line and column, both counted from one. -/
structure TemplateSyntaxError where
  line : Nat
  column : Nat
  cause : TemplateCause

namespace TemplateSyntaxError

def ofFault (source : List Char) (fault : TemplateFault) : TemplateSyntaxError :=
  let (line, column) := lineColumn (beforeByte fault.offset source)
  ⟨line, column, fault.cause⟩

def message (e : TemplateSyntaxError) : String :=
  "template syntax error at " ++ toString e.line ++ ":" ++ toString e.column ++ ": " ++
    e.cause.message

end TemplateSyntaxError
end PathQuery
