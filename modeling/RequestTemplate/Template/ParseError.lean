import RequestTemplate.Text.Quoted

/-!
# Parse errors

Why a template is malformed and where. A position counts characters from the
start of the source, wherever its caller lets the source start; an error that a
function reports need not have one.
-/

namespace RequestTemplate

inductive Malformed where
  | unterminatedTag
  | emptyTag
  /-- No character was found where the tag had already ended. -/
  | expectedIdentifier (found : Option Char)
  | unexpectedCharacter (found : Char)
  | unbalancedParentheses
  | unnamedArgument
  | duplicateArgument (name : String)
  | expectedAssignment (name : String)
  | expectedSeparator (found : Char)
  | missingValue
  | nestedCall
  | unterminatedText
  /-- What a function says of input of its own. -/
  | reported (message : String)
  deriving DecidableEq, Inhabited

def Malformed.message : Malformed → String
  | unterminatedTag => "Unterminated template tag"
  | emptyTag => "Empty template tag"
  | expectedIdentifier none => "Expected identifier but found 'end of tag'"
  | expectedIdentifier (some c) =>
    "Expected identifier but found " ++ Text.quoted (String.singleton c)
  | unexpectedCharacter c =>
    "Unexpected character " ++ Text.quoted (String.singleton c) ++ " in template tag"
  | unbalancedParentheses => "Unbalanced parentheses in function call"
  | unnamedArgument => "Function arguments must be named"
  | duplicateArgument name => "Duplicate argument " ++ Text.quoted name
  | expectedAssignment name => "Expected ':' or '=' after argument " ++ Text.quoted name
  | expectedSeparator c =>
    "Expected ',' or ')' but found " ++ Text.quoted (String.singleton c)
  | missingValue => "Missing argument value"
  | nestedCall => "Nested function calls are not supported"
  | unterminatedText => "Unterminated string literal"
  | reported message => message

structure ParseError where
  reason : Malformed
  position : Option Int
  deriving DecidableEq, Inhabited

def ParseError.message (e : ParseError) : String :=
  match e.position with
  | none => e.reason.message
  | some p => e.reason.message ++ " (at position " ++ toString p ++ ")"

end RequestTemplate
