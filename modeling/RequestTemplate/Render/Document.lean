import RequestTemplate.Document.Basic
import RequestTemplate.Render.Template

/-!
# Rendering documents

Every text in a document is a template of its own; the names of members, numbers,
truth values and null stay as they are. The texts are rendered in the order in
which they stand, and the first failure ends the pass. A date is no text and is
refused.
-/

namespace RequestTemplate

variable {σ : Type}

mutual

/-- Replaces every text of a document. -/
def Document.mapTexts (f : String → Pass Event σ String) : Document → Pass Event σ Document
  | .scalar (.text content) => return .text (← f content)
  | .scalar (.date _) => Pass.fail (.notRenderable .date)
  | .scalar (.dateTime _ _) => Pass.fail (.notRenderable .dateTime)
  | .scalar s => return .scalar s
  | .list items => return .list (← Document.mapTextsOfItems f items)
  | .mapping entries => return .mapping (← Document.mapTextsOfEntries f entries)

def Document.mapTextsOfItems (f : String → Pass Event σ String) : List Document → Pass Event σ (List Document)
  | [] => return []
  | item :: rest => do
    let first ← Document.mapTexts f item
    let others ← Document.mapTextsOfItems f rest
    return first :: others

def Document.mapTextsOfEntries (f : String → Pass Event σ String) :
    List (Scalar × Document) → Pass Event σ (List (Scalar × Document))
  | [] => return []
  | (key, value) :: rest => do
    let first ← Document.mapTexts f value
    let others ← Document.mapTextsOfEntries f rest
    return (key, first) :: others

end

def Renderer.renderDocument (r : Renderer σ) (d : Document) : Pass Event σ Document :=
  d.mapTexts r.renderSource

end RequestTemplate
