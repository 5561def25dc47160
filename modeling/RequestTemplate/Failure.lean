import RequestTemplate.Schema.Issue
import RequestTemplate.Template.ParseError
import RequestTemplate.Text.Base64
import RequestTemplate.Text.Utf8

/-!
# Failures

Everything that can go wrong, by its cause. `Failure.kind` sorts the causes into
the kinds that a caller tells apart: the template errors, among them the render
errors that a pass passes on as they are, and the errors of collaborators.
-/

namespace RequestTemplate

/-- A value that stands for a day, or for a moment of a day. -/
inductive DateKind where
  | date
  | dateTime
  deriving DecidableEq, Inhabited

inductive Failure where
  | parse (error : ParseError)
  | missingVariable (name : String)
  | functionNotFound (name : String)
  /-- A function called `name` failed for a cause of its own. -/
  | functionFailed (name : String) (cause : Failure)
  /-- As `functionFailed`, with the cause in words. -/
  | functionRefused (name reason : String)
  | missingContext (field : String)
  | stackExceeded (depth : Int)
  | notEncrypted
  | notUtf8 (fault : Utf8.Fault)
  | notBase64 (fault : Base64.Fault)
  | alreadyRegistered (name : String)
  | notRenderable (value : DateKind)
  | notAKey (key : DateKind)
  | invalid (model : String) (issues : List Schema.Issue)
  | unknownRequestKind (kind : String)
  | expectedEnvironments (path : String)
  | expectedMapping (path : String)
  | fileNotFound (path : String)
  | cannotOpen (path : String)
  | isDirectory (path : String)
  /-- A step before the last one of the path is no directory. -/
  | notDirectory (path : String)
  | nameTooLong (path : String)
  /-- An indentation is wider than what memory holds. -/
  | tooWide
  /-- Errors that collaborators report in their own words. -/
  | template (message : String)
  | render (message : String)
  | decode (message : String)
  | value (message : String)
  | type (message : String)
  | runtime (message : String)
  | keyring (message : String)
  deriving Inhabited

/-- The kinds of failure that callers tell apart. -/
inductive Failure.Kind where
  | parse | template
  | render | missingVariable | functionNotFound | functionExecution | decode | missingContext
  | stackExceeded
  | encoding | validation | value | type | runtime | keyring | fileNotFound | isDirectory
  | notDirectory | system | overflow
  deriving DecidableEq, Inhabited

namespace Failure

def kind : Failure → Kind
  | parse _ => .parse
  | missingVariable _ => .missingVariable
  | functionNotFound _ => .functionNotFound
  | functionFailed _ _ | functionRefused _ _ => .functionExecution
  | missingContext _ => .missingContext
  | stackExceeded _ => .stackExceeded
  | notEncrypted | render _ => .render
  | notUtf8 _ | decode _ => .decode
  | notBase64 .notAscii => .value
  | notBase64 _ => .encoding
  | alreadyRegistered _ | unknownRequestKind _ | expectedEnvironments _ | expectedMapping _
  | value _ => .value
  | notRenderable _ | notAKey _ | type _ => .type
  | invalid _ _ => .validation
  | fileNotFound _ | cannotOpen _ => .fileNotFound
  | isDirectory _ => .isDirectory
  | notDirectory _ => .notDirectory
  | nameTooLong _ => .system
  | tooWide => .overflow
  | template _ => .template
  | runtime _ => .runtime
  | keyring _ => .keyring

/-- The kinds that a render pass passes on unchanged. -/
def Kind.isRender : Kind → Bool
  | render | missingVariable | functionNotFound | functionExecution | decode | missingContext
  | stackExceeded => true
  | _ => false

/-- The kinds that come from templates. -/
def Kind.isTemplate (k : Kind) : Bool :=
  k.isRender || k == parse || k == template

/-- The kinds that say that a value is not acceptable. -/
def Kind.isValue (k : Kind) : Bool :=
  k == value || k == validation || k == encoding

def message : Failure → String
  | parse e => e.message
  | missingVariable name => "Variable not found: " ++ name
  | functionNotFound name => "Template function not found: " ++ name
  | functionFailed name cause => "Failed to render " ++ name ++ "(): " ++ cause.message
  | functionRefused name reason => "Failed to render " ++ name ++ "(): " ++ reason
  | missingContext field => field ++ " missing from window context"
  | stackExceeded depth =>
    "Render stack exceeded at depth " ++ toString depth ++
      "; a variable probably references itself"
  | notEncrypted => "Could not decrypt non-encrypted value"
  | notUtf8 fault => "Decrypted value is not valid UTF-8: " ++ fault.message
  | notBase64 fault => fault.message
  | alreadyRegistered name => "Template function already registered: " ++ name
  | notRenderable .date => "Cannot render value of type date"
  | notRenderable .dateTime => "Cannot render value of type datetime"
  | notAKey .date => "keys must be str, int, float, bool or None, not datetime.date"
  | notAKey .dateTime => "keys must be str, int, float, bool or None, not datetime.datetime"
  | invalid model [_] => "1 validation error for " ++ model
  | invalid model issues => toString issues.length ++ " validation errors for " ++ model
  | unknownRequestKind kind =>
    "Unknown request kind: " ++ kind ++ " (expected one of http, grpc, websocket)"
  | expectedEnvironments path => "Expected a list of environments in " ++ path
  | expectedMapping path => "Expected a mapping in " ++ path
  | fileNotFound path => "File not found: " ++ path
  | cannotOpen path => "[Errno 2] No such file or directory: " ++ Text.quoted path
  | isDirectory path => "[Errno 21] Is a directory: " ++ Text.quoted path
  | notDirectory path => "[Errno 20] Not a directory: " ++ Text.quoted path
  | nameTooLong path => "[Errno 36] File name too long: " ++ Text.quoted path
  | tooWide => "Indentation does not fit in memory"
  | template message | render message | decode message | value message | type message
  | runtime message | keyring message => message

end Failure

end RequestTemplate
