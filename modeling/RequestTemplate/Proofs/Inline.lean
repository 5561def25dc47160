import Mathlib
import RequestTemplate.Proofs.Lockstep
import RequestTemplate.Proofs.Pass

/-!
# Values in the place of variables

What a pass returns with few levels left for the values of variables, it also returns with
more levels, after the same calls (`Renderer.repeats_expand`, `Renderer.repeats_tokens`). So
wherever a pass returns text, a variable may be replaced by the tokens of its value, which
stand one level higher than they did (`Renderer.inlined`).
-/

namespace RequestTemplate

variable {σ : Type}

/-- Where the first pass returns a value, the second one does the same: it returns this
    value, leaves the same state and records the same. -/
def Pass.repeats (σ : Type) : Pass.Lockstep σ where
  Rel p q := ∀ s a, (p s).outcome = .ok a → q s = p s
  pure _ _ _ _ := rfl
  fail failure s a done := absurd done (by simp)
  bind {_ _ p q f g} first later s b done := by
    obtain ⟨a, here, there⟩ := Pass.outcome_bind_eq_ok.1 done
    have same := first s a here
    rw [Pass.bind_of_ok here, Pass.bind_of_ok (same ▸ here), same, later a _ b there]

namespace Renderer

variable {r : Renderer σ}

theorem inStep_repeats (r : Renderer σ) : r.InStep (Pass.repeats σ) r where
  scope := rfl
  missing _ _ _ _ := rfl
  call _ _ _ _ _ := rfl

/-- A variable stands for the same text with more levels left for its value. -/
theorem repeats_expand {room more : Nat} (le : room ≤ more) (name : String) :
    (Pass.repeats σ).Rel (r.expand room name) (r.expand more name) := by
  induction room generalizing more name with
  | zero =>
    cases known : r.scope.lookup name with
    | none =>
      rw [expand_missing known, expand_missing known]
      exact r.inStep_repeats.missing name
    | some source =>
      -- without a level left there is no text to be repeated
      rw [expand_zero known]
      exact fun s text done => absurd done (by simp)
  | succ room ih =>
    obtain ⟨more, rfl⟩ := Nat.exists_eq_add_one_of_ne_zero (Nat.ne_zero_of_lt le)
    cases known : r.scope.lookup name with
    | none =>
      rw [expand_missing known, expand_missing known]
      exact r.inStep_repeats.missing name
    | some source =>
      cases read : Template.parse source with
      | error e =>
        rw [expand_error known read, expand_error known read]
        exact (Pass.repeats σ).fail _
      | ok template =>
        rw [expand_ok known read, expand_ok known read]
        exact r.inStep_repeats.tokens (ih (Nat.le_of_succ_le_succ le)) template

theorem repeats_tokens {room more : Nat} (le : room ≤ more) (template : Template) :
    (Pass.repeats σ).Rel (r.tokens (r.expand room) template) (r.tokens (r.expand more) template) :=
  r.inStep_repeats.tokens (repeats_expand le) template

theorem tokens_append (r : Renderer σ) (expand : String → Pass Event σ String) (before after : Template) :
    r.tokens expand (before ++ after) = do
      let first ← r.tokens expand before
      let others ← r.tokens expand after
      return first ++ others := by
  induction before with
  | nil => simp only [List.nil_append, tokens, pure_bind, String.empty_append, bind_pure]
  | cons token rest ih =>
    cases token with
    | raw text => simp only [List.cons_append, tokens, ih, bind_assoc, pure_bind, String.append_assoc]
    | tag value span => simp only [List.cons_append, tokens, ih, bind_assoc, pure_bind, String.append_assoc]

/-- The pass over a template that stands this many values deep. -/
def renderAt (r : Renderer σ) (depth : Nat) (template : Template) : Pass Event σ String :=
  r.tokens (r.expand (maxDepth - depth)) template

/-- A pass does the same with the value of a variable in its place, and at a smaller depth,
    wherever it returns text. -/
structure Inlined (r : Renderer σ) (s : σ) : Prop where
  value (before after value : Template) (name source : String) (span : Option String) (text : String)
    (known : r.scope.lookup name = some source) (read : Template.parse source = .ok value)
    (done : (r.render (before ++ .tag (.variable name) span :: after) s).outcome = .ok text) :
    r.render (before ++ value ++ after) s = r.render (before ++ .tag (.variable name) span :: after) s
  depth (template : Template) (shallow deep : Nat) (above : shallow ≤ deep) (text : String)
    (done : (r.renderAt deep template s).outcome = .ok text) :
    r.renderAt shallow template s = r.renderAt deep template s

/-- Whatever its functions do, a pass that returns text also returns it, with the same calls
    and warnings, where a variable is replaced by its value, and at every smaller depth. -/
theorem inlined (r : Renderer σ) (s : σ) : r.Inlined s where
  value before after value name source span text known read := by
    have here : (Pass.repeats σ).Rel (r.expand maxDepth name) (r.tokens (r.expand maxDepth) value) := by
      rw [maxDepth, expand_ok known read]
      exact repeats_tokens (Nat.le_succ _) value
    have whole : (Pass.repeats σ).Rel (r.render (before ++ .tag (.variable name) span :: after))
        (r.render (before ++ value ++ after)) := by
      have same (template : Template) := (r.inStep_repeats).render template
      rw [render, render, List.append_assoc, tokens_append, tokens_append r _ before, tokens_append r _ value]
      refine (Pass.repeats σ).bind (same before) fun first => ?_
      refine (Pass.repeats σ).bind ?_ fun others => (Pass.repeats σ).pure _
      exact (Pass.repeats σ).bind here fun middle => (Pass.repeats σ).bind (same after) fun last => (Pass.repeats σ).pure _
    exact whole s text
  depth template shallow deep above text := repeats_tokens (Nat.sub_le_sub_left above maxDepth) template s text

/-- In a silent pass, the value of a variable calls a function that fails, and so does the text
    behind it. -/
theorem inlined_failing :
    let callback : Callback Nat :=
      { execute := fun _ _ _ calls => ⟨.error (.runtime "boom"), calls + 1, []⟩
        transform := fun _ _ text _ => return text }
    let r : Renderer Nat :=
      { scope := [("v", "<$\x7b[ f(x: w) ]\x7d>"), ("w", "deep")], callback, options := { onFailure := .silent } }
    let value : Template :=
      [.raw "<", .tag (.call "f" [⟨"x", .variable "w"⟩]) (some "$\x7b[ f(x: w) ]\x7d"), .raw ">"]
    r.scope.lookup "v" = some "<$\x7b[ f(x: w) ]\x7d>" ∧ Template.parse "<$\x7b[ f(x: w) ]\x7d>" = .ok value ∧
      (r.render ([.raw "a"] ++ .tag (.variable "v") none :: [.tag (.call "g" []) none]) 0).outcome = .ok "a<>" ∧
      r.render ([.raw "a"] ++ value ++ [.tag (.call "g" []) none]) 0 =
        r.render ([.raw "a"] ++ .tag (.variable "v") none :: [.tag (.call "g" []) none]) 0 := by
  intro callback r value
  have known : r.scope.lookup "v" = some "<$\x7b[ f(x: w) ]\x7d>" := rfl
  have read : Template.parse "<$\x7b[ f(x: w) ]\x7d>" = .ok value := by cbv
  have done : (r.render ([.raw "a"] ++ .tag (.variable "v") none :: [.tag (.call "g" []) none]) 0).outcome =
      .ok "a<>" := by cbv
  exact ⟨known, read, done, (inlined r 0).value _ _ _ _ _ _ _ known read done⟩

end Renderer

end RequestTemplate
