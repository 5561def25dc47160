import RequestTemplate.Function.Stored
import RequestTemplate.Proofs.Canonical
import RequestTemplate.Proofs.Pass

/-!
# Stored templates are read back

Storing a template rewrites texts among the arguments of its calls and nothing
else (`rewritten_of_transform`). A tag that changes loses its span and is written
canonically, so the stored template is read back as the same tokens, whatever
texts the callback puts in (`parse_transform`).
-/

namespace RequestTemplate

variable {σ : Type}

/-- The argument as it was, or with another text in the place of its text. -/
inductive Argument.Rewritten : Argument → Argument → Prop
  | same (argument : Argument) : Rewritten argument argument
  | text (name content stored : String) : Rewritten ⟨name, .text content⟩ ⟨name, .text stored⟩

/-- The token as it was, or a call without its span whose arguments are rewritten. -/
inductive Token.Rewritten : Token → Token → Prop
  | same (token : Token) : Rewritten token token
  | call {name : String} {arguments stored : List Argument} (span : Option String)
      (rewritten : List.Forall₂ Argument.Rewritten arguments stored) :
      Rewritten (.tag (.call name arguments) span) (.tag (.call name stored) none)

/-- The callback has a text for every argument, in every state. -/
def Callback.Rewrites (callback : Callback σ) : Prop :=
  ∀ name argument content context state,
    ∃ stored, (callback.transform name argument content context state).outcome = .ok stored

namespace Template

/-! ## What storing changes -/

theorem rewritten_of_transformArguments {callback : Callback σ} {context : Context} {name : String}
    {arguments stored : List Argument} {state : σ}
    (done : (transformArguments callback context name arguments state).outcome = .ok stored) :
    List.Forall₂ Argument.Rewritten arguments stored := by
  induction arguments generalizing stored state with
  | nil =>
    obtain rfl : [] = stored := Except.ok.inj done
    exact .nil
  | cons argument rest ih =>
    obtain ⟨argumentName, value⟩ := argument
    rcases value with content | _ | _ | _ <;>
      simp only [transformArguments, Pass.outcome_bind_eq_ok, Pass.outcome_pure, Except.ok.injEq] at done
    · obtain ⟨replaced, -, others, later, rfl⟩ := done
      exact .cons (.text argumentName content replaced) (ih later)
    all_goals
      obtain ⟨others, later, rfl⟩ := done
      exact .cons (.same _) (ih later)

theorem rewritten_of_transform {callback : Callback σ} {context : Context} {template stored : Template}
    {state : σ} (done : (transform callback context template state).outcome = .ok stored) :
    List.Forall₂ Token.Rewritten template stored := by
  induction template generalizing stored state with
  | nil =>
    obtain rfl : [] = stored := Except.ok.inj done
    exact .nil
  | cons token rest ih =>
    rcases token with content | ⟨⟨name⟩ | ⟨name, arguments⟩, span⟩ <;>
      simp only [transform, Pass.outcome_bind_eq_ok, Pass.outcome_pure, Except.ok.injEq] at done
    · obtain ⟨others, later, rfl⟩ := done
      exact .cons (.same _) (ih later)
    · obtain ⟨others, later, rfl⟩ := done
      exact .cons (.same _) (ih later)
    · obtain ⟨replaced, written, others, later, rfl⟩ := done
      refine .cons ?_ (ih later)
      simp only [Token.withExpression]
      split
      · rename_i unchanged
        exact .same _
      · exact .call span (rewritten_of_transformArguments written)

theorem transformArguments_succeeds {callback : Callback σ} (rewrites : callback.Rewrites)
    (context : Context) (name : String) (arguments : List Argument) (state : σ) :
    ∃ stored, (transformArguments callback context name arguments state).outcome = .ok stored := by
  induction arguments generalizing state with
  | nil => exact ⟨[], rfl⟩
  | cons argument rest ih =>
    obtain ⟨argumentName, value⟩ := argument
    rcases value with content | _ | _ | _
    · obtain ⟨replaced, written⟩ := rewrites name argumentName content context state
      obtain ⟨others, later⟩ := ih (callback.transform name argumentName content context state).state
      exact ⟨_, Pass.outcome_bind_eq_ok.2 ⟨replaced, written, Pass.outcome_bind_eq_ok.2 ⟨others, later, rfl⟩⟩⟩
    all_goals
      obtain ⟨others, later⟩ := ih state
      exact ⟨_, Pass.outcome_bind_eq_ok.2 ⟨others, later, rfl⟩⟩

theorem transform_succeeds {callback : Callback σ} (rewrites : callback.Rewrites) (context : Context)
    (template : Template) (state : σ) :
    ∃ stored, (transform callback context template state).outcome = .ok stored := by
  induction template generalizing state with
  | nil => exact ⟨[], rfl⟩
  | cons token rest ih =>
    rcases token with content | ⟨⟨name⟩ | ⟨name, arguments⟩, span⟩
    · obtain ⟨others, later⟩ := ih state
      exact ⟨_, Pass.outcome_bind_eq_ok.2 ⟨others, later, rfl⟩⟩
    · obtain ⟨others, later⟩ := ih state
      exact ⟨_, Pass.outcome_bind_eq_ok.2 ⟨others, later, rfl⟩⟩
    · obtain ⟨replaced, written⟩ := transformArguments_succeeds rewrites context name arguments state
      obtain ⟨others, later⟩ := ih (transformArguments callback context name arguments state).state
      exact ⟨_, Pass.outcome_bind_eq_ok.2 ⟨replaced, written, Pass.outcome_bind_eq_ok.2 ⟨others, later, rfl⟩⟩⟩

/-! ## What storing keeps -/

/-- Arguments whose texts are kept are stored as they are. -/
theorem transformArguments_of_kept {callback : Callback σ} {context : Context} {name : String}
    {arguments : List Argument}
    (kept : ∀ argument content, ⟨argument, .text content⟩ ∈ arguments →
      callback.transform name argument content context = pure content) :
    transformArguments callback context name arguments = pure arguments := by
  induction arguments with
  | nil => rfl
  | cons argument rest ih =>
    have later := ih fun argument content member => kept argument content (List.mem_cons_of_mem _ member)
    obtain ⟨argumentName, content | _ | _ | _⟩ := argument
    · rw [transformArguments, kept argumentName content List.mem_cons_self, later, pure_bind, pure_bind]
    all_goals rw [transformArguments, later, pure_bind]
    all_goals exact nofun

/-- A template whose calls keep their arguments is stored as it is, every tag with its span. -/
theorem transform_of_kept {callback : Callback σ} {context : Context} {template : Template}
    (kept : ∀ name arguments span, .tag (.call name arguments) span ∈ template →
      transformArguments callback context name arguments = pure arguments) :
    transform callback context template = pure template := by
  induction template with
  | nil => rfl
  | cons token rest ih =>
    have later := ih fun name arguments span member => kept name arguments span (List.mem_cons_of_mem _ member)
    rcases token with content | ⟨⟨name⟩ | ⟨name, arguments⟩, span⟩
    · rw [transform, later, pure_bind]
      exact nofun
    · rw [transform, later, pure_bind]
      exact nofun
    · rw [transform, kept name arguments span List.mem_cons_self, later, pure_bind, pure_bind,
        Token.withExpression, if_pos rfl]

/-! ## What is stored spells proper spans -/

theorem names_of_rewritten {arguments stored : List Argument}
    (rewritten : List.Forall₂ Argument.Rewritten arguments stored) :
    stored.map Argument.name = arguments.map Argument.name := by
  induction rewritten with
  | nil => rfl
  | cons head tail ih => cases head <;> simp [ih]

theorem wellFormed_of_rewritten {name : String} {arguments stored : List Argument}
    (rewritten : List.Forall₂ Argument.Rewritten arguments stored)
    (formed : (Expression.call name arguments).WellFormed) :
    (Expression.call name stored).WellFormed := by
  obtain ⟨named, distinct, argumentsFormed⟩ := formed
  refine ⟨named, by rwa [names_of_rewritten rewritten], ?_⟩
  clear distinct
  induction rewritten with
  | nil => simp
  | cons head tail ih =>
    rw [List.forall_mem_cons] at argumentsFormed ⊢
    refine ⟨?_, ih argumentsFormed.2⟩
    cases head with
    | same => exact argumentsFormed.1
    | text => exact ⟨argumentsFormed.1.1, trivial⟩

theorem spells_of_rewritten {template stored : Template} {spans : List Span}
    (rewritten : List.Forall₂ Token.Rewritten template stored) (spells : Spells template spans)
    (proper : Span.Proper spans) :
    ∃ storedSpans, Spells stored storedSpans ∧ Span.Proper storedSpans ∧
      ∀ s, Span.Follows s spans → Span.Follows s storedSpans := by
  induction rewritten generalizing spans with
  | nil =>
    cases spells
    exact ⟨[], .nil, trivial, fun _ follows => follows⟩
  | cons head tail ih =>
    cases spells with
    | cons first rest =>
      cases first with
      | @raw content s shown written =>
        obtain ⟨more, quiet, follows, proper⟩ := proper
        obtain ⟨storedSpans, storedSpells, storedProper, keeps⟩ := ih rest proper
        cases head
        exact ⟨.text s :: storedSpans, .cons (.raw shown written) storedSpells,
          ⟨more, quiet, keeps s follows, storedProper⟩, fun _ follows => follows⟩
      | @tag value span body found written =>
        obtain ⟨storedSpans, storedSpells, storedProper, -⟩ := ih rest proper.2
        cases head with
        | same =>
          exact ⟨.tag body :: storedSpans, .cons (.tag found written) storedSpells,
            ⟨proper.1, storedProper⟩, fun _ follows => follows⟩
        | call _ changed =>
          have formed := wellFormed_of_rewritten changed (Tag.wellFormed_of_read found)
          exact ⟨_, .cons (spells_canonical formed) storedSpells,
            ⟨Span.closed_canonical formed, storedProper⟩, fun _ follows => follows⟩

/-- A stored template is read back as the tokens that were stored: the same raw
    texts, and tags of the same values. -/
theorem parse_transform {text : String} {template : Template} (read : parse text = .ok template)
    {callback : Callback σ} (rewrites : callback.Rewrites) (context : Context) (state : σ) :
    ∃ stored, (transform callback context template state).outcome = .ok stored ∧
      parse (source stored) = .ok (settled stored) := by
  obtain ⟨stored, done⟩ := transform_succeeds rewrites context template state
  obtain ⟨spans, spells, proper, -⟩ := spells_of_rewritten (rewritten_of_transform done)
    (spells_of_parse read).1 (Span.proper_spans _)
  exact ⟨stored, done, parse_of_spells spells proper⟩

/-- A text of quotes, backslashes, a closer, an opener and a line break is stored
    between escaped openers and read back. -/
theorem parse_transform_delimiters :
    let callback : Callback Unit :=
      { execute := fun _ _ _ => return none
        transform := fun _ _ content _ => return content ++ "\"\\]\x7d$\x7b[\n" }
    let template (value : String) (span : Option String) : Template :=
      [.raw "$\x7b[ \\\\", .tag (.call "f" [⟨"v", .text value⟩, ⟨"w", .variable "x"⟩]) span,
        .tag (.variable "y") (some "$\x7b[y]\x7d")]
    let stored := template "a\"\\]\x7d$\x7b[\n" none
    parse "\\$\x7b[ \\\\$\x7b[f(v: 'a', w: x)]\x7d$\x7b[y]\x7d" =
        .ok (template "a" (some "$\x7b[f(v: 'a', w: x)]\x7d")) ∧
      callback.Rewrites ∧
      (transform callback default (template "a" (some "$\x7b[f(v: 'a', w: x)]\x7d")) ()).outcome = .ok stored ∧
      parse (source stored) = .ok (settled stored) := by
  intro callback template stored
  have read : parse "\\$\x7b[ \\\\$\x7b[f(v: 'a', w: x)]\x7d$\x7b[y]\x7d" =
      .ok (template "a" (some "$\x7b[f(v: 'a', w: x)]\x7d")) := by cbv
  have rewrites : callback.Rewrites := fun _ _ _ _ _ => ⟨_, rfl⟩
  obtain ⟨written, done, again⟩ := parse_transform read rewrites default ()
  obtain rfl : stored = written := Except.ok.inj done
  exact ⟨read, rewrites, done, again⟩

end Template

end RequestTemplate
