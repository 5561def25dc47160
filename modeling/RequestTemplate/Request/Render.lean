import RequestTemplate.Render.Document
import RequestTemplate.Request.Placeholder
import RequestTemplate.Request.Scope

/-!
# Rendering requests

Every templated text of a request is rendered, in a fixed order, in one pass;
the first failure ends the pass. The placeholders of an HTTP request are filled
afterwards, in the rendered URL. The variables are those of a chain of environments.
-/

namespace RequestTemplate

variable {σ : Type}

/-! ## Texts of requests, in order -/

/-- Replaces the name and then the value of each entry. -/
def NamedValue.mapTexts (f : String → Pass Event σ String) : List NamedValue → Pass Event σ (List NamedValue)
  | [] => return []
  | v :: rest => do
    let name ← f v.name
    let value ← f v.value
    let others ← NamedValue.mapTexts f rest
    return { v with name, value } :: others

/-- Replaces every text in the members of a document. -/
def Document.mapTextsOfMembers (f : String → Pass Event σ String) :
    Dictionary String Document → Pass Event σ (Dictionary String Document)
  | [] => return []
  | (name, value) :: rest => do
    let first ← value.mapTexts f
    let others ← Document.mapTextsOfMembers f rest
    return (name, first) :: others

def HttpRequest.mapTexts (f : String → Pass Event σ String) (r : HttpRequest) : Pass Event σ HttpRequest := do
  let urlParameters ← NamedValue.mapTexts f r.urlParameters
  let headers ← NamedValue.mapTexts f r.headers
  let body ← Document.mapTextsOfMembers f r.body
  let authentication ← Document.mapTextsOfMembers f r.authentication
  let url ← f r.url
  return { r with urlParameters, headers, body, authentication, url }

def GrpcRequest.mapTexts (f : String → Pass Event σ String) (r : GrpcRequest) : Pass Event σ GrpcRequest := do
  let metadata ← NamedValue.mapTexts f r.metadata
  let authentication ← Document.mapTextsOfMembers f r.authentication
  let url ← f r.url
  let message ← f r.message
  return { r with metadata, authentication, url, message }

def WebsocketRequest.mapTexts (f : String → Pass Event σ String) (r : WebsocketRequest) :
    Pass Event σ WebsocketRequest := do
  let headers ← NamedValue.mapTexts f r.headers
  let authentication ← Document.mapTextsOfMembers f r.authentication
  let url ← f r.url
  let message ← f r.message
  return { r with headers, authentication, url, message }

/-! ## Rendering -/

/-- The placeholders in the rendered URL are filled from the rendered parameters; the other
    parameters remain. -/
def HttpRequest.render (r : Renderer σ) (request : HttpRequest) : Pass Event σ HttpRequest := do
  let rendered ← request.mapTexts r.renderSource
  let (url, urlParameters) := Placeholder.apply rendered.url rendered.urlParameters
  return { rendered with url, urlParameters }

def GrpcRequest.render (r : Renderer σ) (request : GrpcRequest) : Pass Event σ GrpcRequest :=
  request.mapTexts r.renderSource

def WebsocketRequest.render (r : Renderer σ) (request : WebsocketRequest) :
    Pass Event σ WebsocketRequest :=
  request.mapTexts r.renderSource

def Request.render (r : Renderer σ) : Request → Pass Event σ Request
  | .http request => .http <$> request.render r
  | .grpc request => .grpc <$> request.render r
  | .websocket request => .websocket <$> request.render r

/-! ## Chains of environments -/

/-- The renderer that has the table of a chain. -/
def Renderer.ofChain (chain : List Environment) (callback : Callback σ) (options : RenderOptions)
    (context : Context) : Renderer σ :=
  { scope := Scope.ofChain chain, callback, options, context }

/-- The table of the chain is made once, for all texts of the request. -/
def Request.renderIn (chain : List Environment) (callback : Callback σ) (options : RenderOptions)
    (context : Context) (request : Request) : Pass Event σ Request :=
  request.render (.ofChain chain callback options context)

end RequestTemplate
