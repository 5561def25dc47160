import RequestTemplate.Document.Basic
import RequestTemplate.Template.Printer

/-!
# Templates as documents

The outline of a template that tools print: one entry for each token, with what
the tag holds.
-/

namespace RequestTemplate.Document

def ofOperand : Operand → Document
  | .text content => object [("type", text "str"), ("text", text content)]
  | .bool value => object [("type", text "bool"), ("value", bool value)]
  | .null => object [("type", text "null")]
  | .variable name => object [("type", text "var"), ("name", text name)]

def ofArgument (argument : Argument) : Document :=
  object [("name", text argument.name), ("value", ofOperand argument.value)]

def ofExpression : Expression → Document
  | .variable name => object [("type", text "var"), ("name", text name)]
  | .call name arguments =>
    object [("type", text "fn"), ("name", text name),
      ("args", list (arguments.map ofArgument))]

def ofToken (token : Token) : Document :=
  match token with
  | .raw content => object [("type", text "raw"), ("text", text content)]
  | .tag value _ =>
    object [("type", text "tag"), ("source", text token.source), ("val", ofExpression value)]

def ofTemplate (template : Template) : Document :=
  list (template.map ofToken)

end RequestTemplate.Document
