import RequestTemplate.Render.Callback
import RequestTemplate.Template.Parser

/-!
# Rendering templates

Tags are rendered from left to right. The value of a variable is a template of
its own and is rendered in the place of the variable; text that a function
returns is never read as a template. Values nest at most `maxDepth` deep, so
rendering ends also where variables refer to each other in a circle.
-/

namespace RequestTemplate

/-- How a failure inside the function of a name leaves a pass: render errors stay
    as they are, any other failure becomes one of the function. -/
def Failure.inCall (failure : Failure) (name : String) : Failure :=
  if failure.kind.isRender then failure else .functionFailed name failure

/-- Everything a pass reads. -/
structure Renderer (σ : Type) where
  /-- The variables in scope. -/
  scope : Dictionary String String
  callback : Callback σ
  options : RenderOptions := {}
  context : Context := {}

namespace Renderer

variable {σ : Type}

/-- How deep the values of variables nest. -/
def maxDepth : Nat := 50

def isSilent (r : Renderer σ) : Bool :=
  r.options.onFailure == .silent

/-- Calls a function. Only a stack that is exceeded inside it ends a silent pass. -/
def call (r : Renderer σ) (name : String) (arguments : Arguments) : Pass Event σ String := do
  Pass.emit (.called name arguments)
  match ← (r.callback.execute name arguments r.context).noting.attempt with
  | .ok result => return result.getD ""
  | .error failure =>
    if failure.kind = .stackExceeded then Pass.fail failure
    else if r.isSilent then do
      Pass.emit (.suppressed name (failure.inCall name))
      return ""
    else Pass.fail (failure.inCall name)

/-! ## Tokens, given what variables stand for -/

section

variable (expand : String → Pass Event σ String)

def operand : Operand → Pass Event σ ArgumentValue
  | .text content => return .text content
  | .bool value => return .bool value
  | .null => return .null
  | .variable name => return .text (← expand name)

def arguments : List Argument → Pass Event σ (List (String × ArgumentValue))
  | [] => return []
  | argument :: rest => do
    let value ← operand expand argument.value
    let others ← arguments rest
    return (argument.name, value) :: others

def expression (r : Renderer σ) : Expression → Pass Event σ String
  | .variable name => expand name
  | .call name args => do
    let values ← arguments expand args
    r.call name (Dictionary.ofList values)

def tokens (r : Renderer σ) : Template → Pass Event σ String
  | [] => return ""
  | .raw text :: rest => return text ++ (← tokens r rest)
  | .tag value _ :: rest => do
    let first ← r.expression expand value
    let others ← tokens r rest
    return first ++ others

end

/-! ## Variables and templates -/

/-- The text that a variable stands for, with `room` levels left for its value. -/
def expand (r : Renderer σ) : (room : Nat) → (name : String) → Pass Event σ String
  | room, name =>
    match r.scope.lookup name with
    | none => if r.isSilent then return "" else Pass.fail (.missingVariable name)
    | some source =>
      match room with
      | 0 => Pass.fail (.stackExceeded (maxDepth + 1))
      | room + 1 =>
        match Template.parse source with
        | .error e => Pass.fail (.parse e)
        | .ok template => r.tokens (r.expand room) template

/-- The text of a template. -/
def render (r : Renderer σ) (template : Template) : Pass Event σ String :=
  r.tokens (r.expand maxDepth) template

/-- The text of a template's source. -/
def renderSource (r : Renderer σ) (source : String) : Pass Event σ String :=
  match Template.parse source with
  | .error e => Pass.fail (.parse e)
  | .ok template => r.render template

end Renderer

end RequestTemplate
