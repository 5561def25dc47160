import RequestTemplate.Render.Options
import RequestTemplate.Render.Pass

/-!
# The callback of a pass

What a pass needs of the functions that templates call: running one by name, and
rewriting an argument of one before it is stored.
-/

namespace RequestTemplate

structure Callback (σ : Type) where
  /-- Runs the function of a name; no result at all counts as empty text. -/
  execute : (name : String) → Arguments → Context → Pass Note σ (Option String)
  /-- Rewrites the text of an argument of the function of a name. -/
  transform : (name argument text : String) → Context → Pass Note σ String

end RequestTemplate
