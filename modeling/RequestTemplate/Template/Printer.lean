import RequestTemplate.Delimiter
import RequestTemplate.Template.Basic

/-!
# Template source

How templates are written. Raw text is escaped; a tag that kept its span is
written as that span, any other in canonical form: one blank inside each
delimiter, arguments as `name: value`, text in double quotes.
-/

namespace RequestTemplate

/-- The characters that stand for `c` between double quotes. -/
def Operand.quoteChar (c : Char) : List Char :=
  if c = '\\' ∨ c = '"' then ['\\', c] else [c]

/-- Text as a literal in double quotes. -/
def Operand.quote (text : String) : String :=
  String.ofList ('"' :: text.toList.flatMap Operand.quoteChar ++ ['"'])

def Operand.source : Operand → String
  | .text content => Operand.quote content
  | .bool true => "true"
  | .bool false => "false"
  | .null => "null"
  | .variable name => name

def Argument.source (argument : Argument) : String :=
  argument.name ++ ": " ++ argument.value.source

def Expression.source : Expression → String
  | .variable name => name
  | .call name arguments =>
    name ++ "(" ++ String.intercalate ", " (arguments.map Argument.source) ++ ")"

/-- The canonical source of a tag. -/
def Expression.tagSource (value : Expression) : String :=
  "$\x7b[ " ++ value.source ++ " ]\x7d"

def Token.source : Token → String
  | .raw text => Delimiter.escape text
  | .tag _ (some span) => span
  | .tag value none => value.tagSource

def Template.source (template : Template) : String :=
  String.join (template.map Token.source)

end RequestTemplate
