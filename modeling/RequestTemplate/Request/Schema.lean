import RequestTemplate.Request.Basic
import RequestTemplate.Schema.Labels

/-!
# Reading and writing requests

The schema of requests and environments, and the data that they are written as.
Members may be missing, except the name of a variable.
-/

namespace RequestTemplate
open Schema (Lax Reader Naming Entries required withDefault model listOf json ofOptionalText write)
open Schema.Lax (text optionalText flag)

variable [Lax]

/-! ## Named values and environments -/

/-- Reads a named value, given how its name is read. -/
def NamedValue.readWith (name : Entries → Schema.Checked String) : Reader NamedValue :=
  model fun m =>
    NamedValue.mk <$> name m
      <*> withDefault m .value text ""
      <*> withDefault m .enabled flag true
      <*> withDefault m .id optionalText none

/-- A header or a parameter, whose name may be missing. -/
def NamedValue.read : Reader NamedValue :=
  NamedValue.readWith fun m => withDefault m .name text ""

/-- A variable, which has a name. -/
def NamedValue.readVariable : Reader NamedValue :=
  NamedValue.readWith fun m => required m .name text

def NamedValue.write (naming : Naming) (v : NamedValue) : Document :=
  Schema.write naming
    [(.name, .text v.name), (.value, .text v.value), (.enabled, .bool v.enabled),
      (.id, ofOptionalText v.id)]

def NamedValue.writeAll (naming : Naming) (vs : List NamedValue) : Document :=
  .list (vs.map (NamedValue.write naming))

def Environment.read : Reader Environment :=
  model fun m =>
    Environment.mk <$> withDefault m .name text ""
      <*> withDefault m .definitions (listOf NamedValue.readVariable) []
      <*> withDefault m .id optionalText none
      <*> withDefault m .workspaceId optionalText none
      <*> withDefault m .parentModel optionalText none
      <*> withDefault m .parentId optionalText none

def Environment.write (naming : Naming) (e : Environment) : Document :=
  Schema.write naming
    [(.name, .text e.name), (.definitions, NamedValue.writeAll naming e.definitions),
      (.id, ofOptionalText e.id), (.workspaceId, ofOptionalText e.workspaceId),
      (.parentModel, ofOptionalText e.parentModel), (.parentId, ofOptionalText e.parentId)]

/-! ## Requests -/

def HttpRequest.read : Reader HttpRequest :=
  model fun m =>
    HttpRequest.mk <$> withDefault m .id optionalText none
      <*> withDefault m .workspaceId optionalText none
      <*> withDefault m .folderId optionalText none
      <*> withDefault m .name text ""
      <*> withDefault m .method text "GET"
      <*> withDefault m .url text ""
      <*> withDefault m .urlParameters (listOf NamedValue.read) []
      <*> withDefault m .headers (listOf NamedValue.read) []
      <*> withDefault m .bodyType optionalText none
      <*> withDefault m .body json []
      <*> withDefault m .authenticationType optionalText none
      <*> withDefault m .authentication json []

def HttpRequest.write (naming : Naming) (r : HttpRequest) : Document :=
  Schema.write naming
    [(.id, ofOptionalText r.id), (.workspaceId, ofOptionalText r.workspaceId),
      (.folderId, ofOptionalText r.folderId), (.name, .text r.name), (.method, .text r.method),
      (.url, .text r.url), (.urlParameters, NamedValue.writeAll naming r.urlParameters),
      (.headers, NamedValue.writeAll naming r.headers), (.bodyType, ofOptionalText r.bodyType),
      (.body, .object r.body), (.authenticationType, ofOptionalText r.authenticationType),
      (.authentication, .object r.authentication)]

def GrpcRequest.read : Reader GrpcRequest :=
  model fun m =>
    GrpcRequest.mk <$> withDefault m .id optionalText none
      <*> withDefault m .workspaceId optionalText none
      <*> withDefault m .folderId optionalText none
      <*> withDefault m .name text ""
      <*> withDefault m .url text ""
      <*> withDefault m .service optionalText none
      <*> withDefault m .method optionalText none
      <*> withDefault m .message text ""
      <*> withDefault m .metadata (listOf NamedValue.read) []
      <*> withDefault m .authenticationType optionalText none
      <*> withDefault m .authentication json []

def GrpcRequest.write (naming : Naming) (r : GrpcRequest) : Document :=
  Schema.write naming
    [(.id, ofOptionalText r.id), (.workspaceId, ofOptionalText r.workspaceId),
      (.folderId, ofOptionalText r.folderId), (.name, .text r.name), (.url, .text r.url),
      (.service, ofOptionalText r.service), (.method, ofOptionalText r.method),
      (.message, .text r.message), (.metadata, NamedValue.writeAll naming r.metadata),
      (.authenticationType, ofOptionalText r.authenticationType),
      (.authentication, .object r.authentication)]

def WebsocketRequest.read : Reader WebsocketRequest :=
  model fun m =>
    WebsocketRequest.mk <$> withDefault m .id optionalText none
      <*> withDefault m .workspaceId optionalText none
      <*> withDefault m .folderId optionalText none
      <*> withDefault m .name text ""
      <*> withDefault m .url text ""
      <*> withDefault m .message text ""
      <*> withDefault m .headers (listOf NamedValue.read) []
      <*> withDefault m .authenticationType optionalText none
      <*> withDefault m .authentication json []

def WebsocketRequest.write (naming : Naming) (r : WebsocketRequest) : Document :=
  Schema.write naming
    [(.id, ofOptionalText r.id), (.workspaceId, ofOptionalText r.workspaceId),
      (.folderId, ofOptionalText r.folderId), (.name, .text r.name), (.url, .text r.url),
      (.message, .text r.message), (.headers, NamedValue.writeAll naming r.headers),
      (.authenticationType, ofOptionalText r.authenticationType),
      (.authentication, .object r.authentication)]

/-! ## Whole models, by the names that failures show -/

def NamedValue.validateVariable : Document → Except Failure NamedValue :=
  Schema.validate "EnvironmentVariable" NamedValue.readVariable

def NamedValue.validateHeader : Document → Except Failure NamedValue :=
  Schema.validate "HttpRequestHeader" NamedValue.read

def NamedValue.validateParameter : Document → Except Failure NamedValue :=
  Schema.validate "HttpUrlParameter" NamedValue.read

def Environment.validate : Document → Except Failure Environment :=
  Schema.validate "Environment" Environment.read

namespace Request

/-- The model of each kind of request. -/
def Kind.model : Kind → String
  | http => "HttpRequest"
  | grpc => "GrpcRequest"
  | websocket => "WebsocketRequest"

def validate (kind : Kind) (d : Document) : Except Failure Request :=
  match kind with
  | .http => (Schema.validate kind.model HttpRequest.read d).map .http
  | .grpc => (Schema.validate kind.model GrpcRequest.read d).map .grpc
  | .websocket => (Schema.validate kind.model WebsocketRequest.read d).map .websocket

def kind : Request → Kind
  | http _ => .http
  | grpc _ => .grpc
  | websocket _ => .websocket

def write (naming : Naming) : Request → Document
  | http r => r.write naming
  | grpc r => r.write naming
  | websocket r => r.write naming

end Request

end RequestTemplate
