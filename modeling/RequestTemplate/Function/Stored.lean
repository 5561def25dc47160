import RequestTemplate.Render.Callback
import RequestTemplate.Template.Basic

/-!
# Arguments as they are stored

Before a template is stored, every text that stands as an argument of a call is
passed through the callback, in the order of the source. A tag in which nothing
changes keeps its span.
-/

namespace RequestTemplate.Template

variable {σ : Type}

/-- The arguments of a call of `name`, as they are stored. -/
def transformArguments (callback : Callback σ) (context : Context) (name : String) :
    List Argument → Pass Note σ (List Argument)
  | [] => return []
  | ⟨argument, .text content⟩ :: rest => do
    let stored ← callback.transform name argument content context
    let others ← transformArguments callback context name rest
    return ⟨argument, .text stored⟩ :: others
  | other :: rest => do
    let others ← transformArguments callback context name rest
    return other :: others

/-- The template as it is stored. -/
def transform (callback : Callback σ) (context : Context) : Template → Pass Note σ Template
  | [] => return []
  | .tag (.call name arguments) span :: rest => do
    let stored ← transformArguments callback context name arguments
    let others ← transform callback context rest
    return (Token.tag (.call name arguments) span).withExpression (.call name stored) :: others
  | token :: rest => do
    let others ← transform callback context rest
    return token :: others

end RequestTemplate.Template
