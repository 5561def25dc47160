/-!
# Templates

A template is a list of tokens: literal text, and tags that hold an expression.
An expression is a variable, or a call of a function with named arguments. An
argument is never a call, so expressions do not nest.
-/

namespace RequestTemplate

/-- What stands as the value of an argument. -/
inductive Operand where
  | text (content : String)
  | bool (value : Bool)
  | null
  | variable (name : String)
  deriving DecidableEq, Inhabited

structure Argument where
  name : String
  value : Operand
  deriving DecidableEq, Inhabited

/-- What stands in a tag. -/
inductive Expression where
  | variable (name : String)
  | call (name : String) (arguments : List Argument)
  deriving DecidableEq, Inhabited

/-- A raw token holds the text that is emitted for it, so without escapes. A tag
    that was read keeps the source it was read from. -/
inductive Token where
  | raw (text : String)
  | tag (value : Expression) (span : Option String)
  deriving DecidableEq, Inhabited

abbrev Template := List Token

/-- Puts another expression into a tag. A tag keeps its span only if its
    expression stays the same; raw text has no expression to replace. -/
def Token.withExpression (token : Token) (value : Expression) : Token :=
  match token with
  | .raw text => .raw text
  | .tag old span => if value = old then .tag old span else .tag value none

end RequestTemplate
