import RequestTemplate.Document.Basic

/-!
# Requests and environments

What a renderer reads its templates from. Headers, parameters and variables are
all named values that can be switched off.
-/

namespace RequestTemplate

/-- A header, a parameter of a URL, an entry of metadata, or a variable. -/
structure NamedValue where
  name : String := ""
  value : String := ""
  enabled : Bool := true
  id : Option String := none
  deriving DecidableEq, Inhabited

/-- A set of variables. Environments form a chain from the most specific one to
    the most general one. -/
structure Environment where
  name : String := ""
  definitions : List NamedValue := []
  id : Option String := none
  workspaceId : Option String := none
  parentModel : Option String := none
  parentId : Option String := none
  deriving DecidableEq, Inhabited

structure HttpRequest where
  id : Option String := none
  workspaceId : Option String := none
  folderId : Option String := none
  name : String := ""
  method : String := "GET"
  url : String := ""
  urlParameters : List NamedValue := []
  headers : List NamedValue := []
  bodyType : Option String := none
  body : Dictionary String Document := []
  authenticationType : Option String := none
  authentication : Dictionary String Document := []
  deriving Inhabited

structure GrpcRequest where
  id : Option String := none
  workspaceId : Option String := none
  folderId : Option String := none
  name : String := ""
  url : String := ""
  service : Option String := none
  method : Option String := none
  message : String := ""
  metadata : List NamedValue := []
  authenticationType : Option String := none
  authentication : Dictionary String Document := []
  deriving Inhabited

structure WebsocketRequest where
  id : Option String := none
  workspaceId : Option String := none
  folderId : Option String := none
  name : String := ""
  url : String := ""
  message : String := ""
  headers : List NamedValue := []
  authenticationType : Option String := none
  authentication : Dictionary String Document := []
  deriving Inhabited

inductive Request where
  | http (request : HttpRequest)
  | grpc (request : GrpcRequest)
  | websocket (request : WebsocketRequest)
  deriving Inhabited

/-- The protocols that requests are made for. -/
inductive Request.Kind where
  | http
  | grpc
  | websocket
  deriving DecidableEq, Inhabited

def Request.Kind.ofName? : String → Option Request.Kind
  | "http" => some .http
  | "grpc" => some .grpc
  | "websocket" => some .websocket
  | _ => none

end RequestTemplate
