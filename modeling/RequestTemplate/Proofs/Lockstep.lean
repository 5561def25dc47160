import RequestTemplate.Render.Document

/-!
# Renderers in step

Two renderers with the same variables in scope go through a template alike. They
differ in their calls, and in what they do about a variable that is missing. So a
relation between passes that sequences keep holds of whole renderings as soon as it
holds of these two (`InStep.renderSource`, `InStep.renderDocument`).
-/

namespace RequestTemplate

variable {σ : Type}

/-- A relation between passes that holds of passes which end at once and alike, and is
    kept by sequences that go on alike. -/
structure Pass.Lockstep (σ : Type) where
  Rel : {α : Type} → Pass Event σ α → Pass Event σ α → Prop
  pure {α : Type} (a : α) : Rel (pure a) (pure a)
  fail {α : Type} (failure : Failure) : Rel (α := α) (Pass.fail failure) (Pass.fail failure)
  bind {α β : Type} {p q : Pass Event σ α} {f g : α → Pass Event σ β} (first : Rel p q)
    (later : ∀ a, Rel (f a) (g a)) : Rel (p >>= f) (q >>= g)

namespace Renderer

/-- What stands for a variable that is not in scope. -/
def missing (r : Renderer σ) (name : String) : Pass Event σ String :=
  if r.isSilent then return "" else Pass.fail (.missingVariable name)

/-- The relation holds between what the renderers do differently. -/
structure InStep (law : Pass.Lockstep σ) (r other : Renderer σ) : Prop where
  scope : r.scope = other.scope
  missing (name : String) : law.Rel (r.missing name) (other.missing name)
  call (name : String) (arguments : Arguments) : law.Rel (r.call name arguments) (other.call name arguments)

/-! ## Variables -/

theorem expand_missing {r : Renderer σ} {name : String} (unknown : r.scope.lookup name = none) (room : Nat) :
    r.expand room name = r.missing name := by
  rw [expand, unknown]
  rfl

theorem expand_zero {r : Renderer σ} {name source : String} (known : r.scope.lookup name = some source) :
    r.expand 0 name = Pass.fail (.stackExceeded (maxDepth + 1)) := by
  rw [expand, known]

theorem expand_error {r : Renderer σ} {name source : String} {e : ParseError}
    (known : r.scope.lookup name = some source) (refused : Template.parse source = .error e) (room : Nat) :
    r.expand (room + 1) name = Pass.fail (.parse e) := by
  simp only [expand, known, refused]

theorem expand_ok {r : Renderer σ} {name source : String} {template : Template}
    (known : r.scope.lookup name = some source) (read : Template.parse source = .ok template) (room : Nat) :
    r.expand (room + 1) name = r.tokens (r.expand room) template := by
  simp only [expand, known, read]

namespace InStep

variable {law : Pass.Lockstep σ} {r other : Renderer σ}

section

variable {expand expandOther : String → Pass Event σ String}

/-! ## Tokens, given that variables are in step -/

theorem operand (expands : ∀ name, law.Rel (expand name) (expandOther name)) (value : Operand) :
    law.Rel (Renderer.operand expand value) (Renderer.operand expandOther value) := by
  rcases value with content | b | _ | name
  · exact law.pure _
  · exact law.pure _
  · exact law.pure _
  · exact law.bind (expands name) fun _ => law.pure _

theorem arguments (expands : ∀ name, law.Rel (expand name) (expandOther name)) (args : List Argument) :
    law.Rel (Renderer.arguments expand args) (Renderer.arguments expandOther args) := by
  induction args with
  | nil => exact law.pure _
  | cons argument rest ih =>
    refine law.bind (operand expands argument.value) fun value => ?_
    exact law.bind ih fun others => law.pure _

theorem expression (step : r.InStep law other)
    (expands : ∀ name, law.Rel (expand name) (expandOther name)) (value : Expression) :
    law.Rel (r.expression expand value) (other.expression expandOther value) := by
  rcases value with name | ⟨name, args⟩
  · exact expands name
  · exact law.bind (arguments expands args) fun values => step.call name _

theorem tokens (step : r.InStep law other)
    (expands : ∀ name, law.Rel (expand name) (expandOther name)) (template : Template) :
    law.Rel (r.tokens expand template) (other.tokens expandOther template) := by
  induction template with
  | nil => exact law.pure _
  | cons token rest ih =>
    cases token with
    | raw text => exact law.bind ih fun others => law.pure _
    | tag value span =>
      refine law.bind (step.expression expands value) fun first => ?_
      exact law.bind ih fun others => law.pure _

end

/-! ## Variables and templates -/

theorem expand (step : r.InStep law other) (room : Nat) (name : String) :
    law.Rel (r.expand room name) (other.expand room name) := by
  induction room generalizing name with
  | zero =>
    cases known : r.scope.lookup name with
    | none =>
      rw [expand_missing known, expand_missing (step.scope ▸ known)]
      exact step.missing name
    | some source =>
      rw [expand_zero known, expand_zero (step.scope ▸ known)]
      exact law.fail _
  | succ room ih =>
    cases known : r.scope.lookup name with
    | none =>
      rw [expand_missing known, expand_missing (step.scope ▸ known)]
      exact step.missing name
    | some source =>
      cases read : Template.parse source with
      | error e =>
        rw [expand_error known read, expand_error (step.scope ▸ known) read]
        exact law.fail _
      | ok template =>
        rw [expand_ok known read, expand_ok (step.scope ▸ known) read]
        exact step.tokens ih template

theorem render (step : r.InStep law other) (template : Template) :
    law.Rel (r.render template) (other.render template) :=
  step.tokens (step.expand maxDepth) template

theorem renderSource (step : r.InStep law other) (source : String) :
    law.Rel (r.renderSource source) (other.renderSource source) := by
  unfold Renderer.renderSource
  cases Template.parse source with
  | error e => exact law.fail _
  | ok template => exact step.render template

/-! ## Documents -/

section

variable {f g : String → Pass Event σ String}

mutual

theorem mapTexts (texts : ∀ content, law.Rel (f content) (g content)) :
    ∀ d : Document, law.Rel (d.mapTexts f) (d.mapTexts g)
  | .scalar .null => law.pure _
  | .scalar (.bool _) => law.pure _
  | .scalar (.integer _) => law.pure _
  | .scalar (.decimal _) => law.pure _
  | .scalar (.text content) => law.bind (texts content) fun _ => law.pure _
  | .scalar (.date _) => law.fail _
  | .scalar (.dateTime _ _) => law.fail _
  | .list items => law.bind (mapTextsOfItems texts items) fun _ => law.pure _
  | .mapping entries => law.bind (mapTextsOfEntries texts entries) fun _ => law.pure _

theorem mapTextsOfItems (texts : ∀ content, law.Rel (f content) (g content)) :
    ∀ items : List Document, law.Rel (Document.mapTextsOfItems f items) (Document.mapTextsOfItems g items)
  | [] => law.pure _
  | item :: rest =>
    law.bind (mapTexts texts item) fun _ => law.bind (mapTextsOfItems texts rest) fun _ => law.pure _

theorem mapTextsOfEntries (texts : ∀ content, law.Rel (f content) (g content)) :
    ∀ entries : List (Scalar × Document),
      law.Rel (Document.mapTextsOfEntries f entries) (Document.mapTextsOfEntries g entries)
  | [] => law.pure _
  | (_, value) :: rest =>
    law.bind (mapTexts texts value) fun _ => law.bind (mapTextsOfEntries texts rest) fun _ => law.pure _

end

end

theorem renderDocument (step : r.InStep law other) (d : Document) :
    law.Rel (r.renderDocument d) (other.renderDocument d) :=
  mapTexts step.renderSource d

end InStep

end Renderer

end RequestTemplate
