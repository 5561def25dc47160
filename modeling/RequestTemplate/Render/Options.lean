/-!
# Options and context of a render pass

What a pass does about failures, and what the functions that it calls learn
about where and why they are called.
-/

namespace RequestTemplate

/-- What a pass does with a missing variable or a failed function: it ends, or
    it renders them as empty text. -/
inductive FailurePolicy where
  | throw
  | silent
  deriving DecidableEq, Inhabited

structure RenderOptions where
  onFailure : FailurePolicy := .throw
  deriving DecidableEq, Inhabited

/-- Why a template is rendered. -/
inductive Purpose where
  | send
  | preview
  deriving DecidableEq, Inhabited

structure Context where
  label : Option String := none
  workspaceId : Option String := none
  environmentId : Option String := none
  purpose : Purpose := .send
  deriving DecidableEq, Inhabited

end RequestTemplate
