import RequestTemplate.Proofs.Stored
import RequestTemplate.Proofs.Sweep

/-!
# Literals are stored in order

The literals of a template are the texts among the arguments of its calls. Storing the
template asks the callback for each of them once, in the order of the source, and ends
with the first that fails; it puts the texts that it is given in their places and touches
nothing else (`inOrder_of_parse`). What the callback is asked is seen by a callback that
keeps a list of it and does the same otherwise (`Callback.logged`).
-/

namespace RequestTemplate

variable {ε σ κ α β : Type}

/-- A text that stands as an argument of a call. -/
structure Literal where
  function : String
  argument : String
  content : String
  deriving DecidableEq, Inhabited

/-- The texts among the arguments of a call. -/
def Argument.literals (function : String) : List Argument → List Literal
  | [] => []
  | ⟨argument, .text content⟩ :: rest => ⟨function, argument, content⟩ :: literals function rest
  | _ :: rest => literals function rest

def Token.literals : Token → List Literal
  | .tag (.call name arguments) _ => Argument.literals name arguments
  | _ => []

/-- The texts among the arguments of the calls, in the order of the source. -/
def Template.literals (template : Template) : List Literal := template.flatMap Token.literals

/-- Asks for what is stored in the place of the literal. -/
def Literal.store (callback : Callback σ) (context : Context) (literal : Literal) : Pass Note σ String :=
  callback.transform literal.function literal.argument literal.content context

/-- Raw text, variables and values that are no text are as they were, and so is a call all
    of whose texts are: it keeps its span too. -/
structure Token.Stored (token stored : Token) : Prop where
  rewritten : Token.Rewritten token stored
  kept (same : stored.literals.map Literal.content = token.literals.map Literal.content) : stored = token

/-- The template as it is stored, token for token, with these texts for its literals. -/
structure Template.Stores (template stored : Template) (texts : List String) : Prop where
  tokens : List.Forall₂ Token.Stored template stored
  texts : (literals stored).map Literal.content = texts

/-! ## Keeping a list of what is asked -/

/-- Lets the pass go by a list, which it does not see. -/
def Pass.beside (p : Pass ε σ α) (f : κ → κ) : Pass ε (σ × κ) α := fun (s, k) =>
  ⟨(p s).outcome, ((p s).state, f k), (p s).record⟩

/-- The callback that also keeps a list of the literals that it is asked to store. -/
def Callback.logged (callback : Callback σ) : Callback (σ × List Literal) where
  execute name arguments context := (callback.execute name arguments context).beside id
  transform name argument text context :=
    (callback.transform name argument text context).beside (· ++ [⟨name, argument, text⟩])

namespace Pass

/-- Both passes do the same, but for what the first one does to the other part of the
    state. -/
def Erases (p : Pass ε (σ × κ) α) (q : Pass ε σ α) : Prop :=
  ∀ s k, ∃ j, p (s, k) = ⟨(q s).outcome, ((q s).state, j), (q s).record⟩

theorem erases_pure (a : α) : Erases (pure a : Pass ε (σ × κ) α) (pure a) := fun _ k => ⟨k, rfl⟩

theorem erases_beside (p : Pass ε σ α) (f : κ → κ) : Erases (p.beside f) p := fun _ k => ⟨f k, rfl⟩

theorem erases_bind {p : Pass ε (σ × κ) α} {q : Pass ε σ α} {f : α → Pass ε (σ × κ) β} {g : α → Pass ε σ β}
    (first : Erases p q) (later : ∀ a, Erases (f a) (g a)) : Erases (p >>= f) (q >>= g) := by
  intro s k
  obtain ⟨j, here⟩ := first s k
  cases done : (q s).outcome with
  | error failure =>
    rw [bind_of_error done, bind_of_error (by rw [here]; exact done), here]
    exact ⟨j, rfl⟩
  | ok a =>
    obtain ⟨i, there⟩ := later a (q s).state j
    rw [bind_of_ok done, bind_of_ok (by rw [here]; exact done), here, there]
    exact ⟨i, rfl⟩

theorem erases_mapM {f : α → Pass ε (σ × κ) β} {g : α → Pass ε σ β} (each : ∀ x, Erases (f x) (g x))
    (xs : List α) : Erases (xs.mapM f) (xs.mapM g) := by
  induction xs with
  | nil => exact erases_pure []
  | cons x xs ih =>
    rw [List.mapM_cons, List.mapM_cons]
    exact erases_bind (each x) fun _ => erases_bind ih fun _ => erases_pure _

end Pass

namespace Template

variable {callback : Callback σ} {context : Context}

theorem erases_store (callback : Callback σ) (context : Context) (literal : Literal) :
    Pass.Erases (literal.store callback.logged context) (literal.store callback context) :=
  Pass.erases_beside _ _

theorem erases_transformArguments (callback : Callback σ) (context : Context) (name : String)
    (arguments : List Argument) :
    Pass.Erases (transformArguments callback.logged context name arguments)
      (transformArguments callback context name arguments) := by
  induction arguments with
  | nil => exact Pass.erases_pure []
  | cons argument rest ih =>
    obtain ⟨argumentName, content | _ | _ | _⟩ := argument
    · exact Pass.erases_bind (erases_store callback context ⟨name, argumentName, content⟩) fun _ =>
        Pass.erases_bind ih fun _ => Pass.erases_pure _
    all_goals exact Pass.erases_bind ih fun _ => Pass.erases_pure _

/-- Keeping the list changes nothing else. -/
theorem erases_transform (callback : Callback σ) (context : Context) (template : Template) :
    Pass.Erases (transform callback.logged context template) (transform callback context template) := by
  induction template with
  | nil => exact Pass.erases_pure []
  | cons token rest ih =>
    rcases token with content | ⟨⟨name⟩ | ⟨name, arguments⟩, span⟩
    · exact Pass.erases_bind ih fun _ => Pass.erases_pure _
    · exact Pass.erases_bind ih fun _ => Pass.erases_pure _
    · exact Pass.erases_bind (erases_transformArguments callback context name arguments) fun _ =>
        Pass.erases_bind ih fun _ => Pass.erases_pure _

/-- Storing literals one after the other, each is put on the list. -/
theorem logged_mapM {literals : List Literal} {s : σ} {log : List Literal} {texts : List String}
    (done : (literals.mapM (Literal.store callback.logged context) (s, log)).outcome = .ok texts) :
    (literals.mapM (Literal.store callback.logged context) (s, log)).state.2 = log ++ literals := by
  induction literals generalizing s log texts with
  | nil => exact (List.append_nil log).symm
  | cons literal rest ih =>
    rw [List.mapM_cons] at done
    obtain ⟨text, first, onward⟩ := Pass.outcome_bind_eq_ok.1 done
    obtain ⟨others, later, -⟩ := Pass.outcome_bind_eq_ok.1 onward
    rw [Pass.mapM_cons_of_ok first]
    exact (ih later).trans (List.append_assoc _ _ _)

/-- The literal that fails is the last one on the list. -/
theorem logged_mapM_error {literals : List Literal} {s : σ} {log : List Literal} {failure : Failure}
    (failed : (literals.mapM (Literal.store callback.logged context) (s, log)).outcome = .error failure) :
    ∃ before literal after texts, literals = before ++ literal :: after ∧
      (literals.mapM (Literal.store callback.logged context) (s, log)).state.2 = log ++ (before ++ [literal]) ∧
      (before.mapM (Literal.store callback context) s).outcome = .ok texts ∧
      (literal.store callback context (before.mapM (Literal.store callback context) s).state).outcome =
        .error failure := by
  obtain ⟨before, literal, after, texts, cut, done, stopped, left, -⟩ := Pass.exists_of_mapM_error failed
  have listed := logged_mapM done
  obtain ⟨list, plain⟩ := Pass.erases_mapM (erases_store callback context) before s log
  rw [plain] at done stopped left listed
  refine ⟨before, literal, after, texts, cut, ?_, done, stopped⟩
  obtain rfl : list = log ++ before := listed
  rw [left, ← List.append_assoc]
  rfl

theorem mapM_of_same {literals : List Literal} {s : σ}
    (same : ∀ literal ∈ literals, ∀ t, (literal.store callback context t).outcome = .ok literal.content) :
    (literals.mapM (Literal.store callback context) s).outcome = .ok (literals.map Literal.content) := by
  induction literals generalizing s with
  | nil => rfl
  | cons literal rest ih =>
    rw [Pass.mapM_cons_of_ok (same literal List.mem_cons_self s),
      ih fun other member => same other (List.mem_cons_of_mem _ member)]
    rfl

/-! ## What is stored in the places of literals -/

theorem length_literals {name : String} {arguments stored : List Argument}
    (rewritten : List.Forall₂ Argument.Rewritten arguments stored) :
    (Argument.literals name stored).length = (Argument.literals name arguments).length := by
  induction rewritten with
  | nil => rfl
  | @cons argument other _ _ head _ ih =>
    cases head with
    | same => obtain ⟨argumentName, _ | _ | _ | _⟩ := argument <;> simpa [Argument.literals] using ih
    | text => simpa [Argument.literals] using ih

theorem eq_of_contents {name : String} {arguments stored : List Argument}
    (rewritten : List.Forall₂ Argument.Rewritten arguments stored)
    (same : (Argument.literals name stored).map Literal.content =
      (Argument.literals name arguments).map Literal.content) : stored = arguments := by
  induction rewritten with
  | nil => rfl
  | @cons argument other _ _ head _ ih =>
    cases head with
    | same =>
      obtain ⟨argumentName, content | _ | _ | _⟩ := argument
      · rw [ih (List.cons.inj same).2]
      all_goals rw [ih same]
    | text argumentName content replaced =>
      obtain ⟨rfl, later⟩ := List.cons.inj same
      rw [ih later]

/-- Putting the stored texts into a call keeps the span of a call that stays as it is. -/
theorem stored_withExpression {name : String} {arguments stored : List Argument}
    (rewritten : List.Forall₂ Argument.Rewritten arguments stored) (span : Option String) :
    Token.Stored (.tag (.call name arguments) span)
      ((Token.tag (.call name arguments) span).withExpression (.call name stored)) := by
  by_cases same : stored = arguments
  · subst same
    rw [Token.withExpression, if_pos rfl]
    exact ⟨.same _, fun _ => rfl⟩
  · rw [Token.withExpression, if_neg (by simpa using same)]
    exact ⟨.call span rewritten, fun alike => absurd (eq_of_contents rewritten alike) same⟩

theorem literals_withExpression (name : String) (arguments stored : List Argument) (span : Option String) :
    ((Token.tag (.call name arguments) span).withExpression (.call name stored)).literals =
      Argument.literals name stored := by
  obtain ⟨other, eq⟩ := Token.withExpression_tag (.call name arguments) (.call name stored) span
  rw [eq, Token.literals]

theorem length_of_stored {token stored : Token} (holds : Token.Stored token stored) :
    stored.literals.length = token.literals.length := by
  cases holds.rewritten with
  | same => rfl
  | call span rewritten => exact length_literals rewritten

/-- A template that is given its own texts is stored as it is, every tag with its span. -/
theorem eq_of_stores {template stored : Template} {texts : List String} (stores : Stores template stored texts)
    (same : texts = (literals template).map Literal.content) : stored = template := by
  obtain ⟨tokens, texts⟩ := stores
  rw [← texts] at same
  clear texts
  induction tokens with
  | nil => rfl
  | cons head tail ih =>
    simp only [literals, List.flatMap_cons, List.map_append] at same
    have lengths := length_of_stored head
    obtain ⟨here, later⟩ := List.append_inj same (by simpa using lengths)
    rw [head.kept here, ih later]

theorem coupled_transformArguments (callback : Callback σ) (context : Context) (name : String)
    (arguments : List Argument) :
    Pass.Coupled (fun stored texts => List.Forall₂ Argument.Rewritten arguments stored ∧
        (Argument.literals name stored).map Literal.content = texts)
      (transformArguments callback context name arguments)
      ((Argument.literals name arguments).mapM (Literal.store callback context)) := by
  induction arguments with
  | nil => exact Pass.coupled_pure ⟨.nil, rfl⟩
  | cons argument rest ih =>
    obtain ⟨argumentName, content | _ | _ | _⟩ := argument
    · rw [Argument.literals, List.mapM_cons]
      refine Pass.coupled_bind (Pass.coupled_refl _) fun text other same => ?_
      subst same
      refine Pass.coupled_bind ih fun stored texts fills => Pass.coupled_pure ⟨?_, ?_⟩
      · exact .cons (.text argumentName content text) fills.1
      · exact congrArg (text :: ·) fills.2
    all_goals
      rw [← bind_pure (List.mapM _ _)]
      exact Pass.coupled_bind ih fun stored texts fills => Pass.coupled_pure ⟨.cons (.same _) fills.1, fills.2⟩

/-- Storing a template is storing its literals one after the other. -/
theorem coupled_transform (callback : Callback σ) (context : Context) (template : Template) :
    Pass.Coupled (Stores template) (transform callback context template)
      ((literals template).mapM (Literal.store callback context)) := by
  induction template with
  | nil => exact Pass.coupled_pure ⟨.nil, rfl⟩
  | cons token rest ih =>
    rcases token with content | ⟨⟨name⟩ | ⟨name, arguments⟩, span⟩
    · rw [← bind_pure (List.mapM _ _)]
      refine Pass.coupled_bind ih fun stored texts fills => Pass.coupled_pure ⟨.cons ?_ fills.tokens, fills.texts⟩
      exact ⟨.same _, fun _ => rfl⟩
    · rw [← bind_pure (List.mapM _ _)]
      refine Pass.coupled_bind ih fun stored texts fills => Pass.coupled_pure ⟨.cons ?_ fills.tokens, fills.texts⟩
      exact ⟨.same _, fun _ => rfl⟩
    · have split : literals (.tag (.call name arguments) span :: rest) =
        Argument.literals name arguments ++ literals rest := rfl
      rw [split, List.mapM_append]
      refine Pass.coupled_bind (coupled_transformArguments callback context name arguments)
        fun stored texts fills => ?_
      refine Pass.coupled_bind ih fun others more fillsMore => Pass.coupled_pure ⟨?_, ?_⟩
      · exact .cons (stored_withExpression fills.1 span) fillsMore.tokens
      · have joined := congrArg₂ (· ++ ·) fills.2 fillsMore.texts
        rw [literals, List.flatMap_cons, literals_withExpression, List.map_append]
        exact joined

/-! ## Whole sources -/

/-- The literals that storing the template asks for, in the order of the calls. -/
def asked (callback : Callback σ) (context : Context) (template : Template) (s : σ) : List Literal :=
  (transform callback.logged context template (s, [])).state.2

/-- Storing the template of `text` asks for its literals, one after the other. -/
structure InOrder (callback : Callback σ) (context : Context) (text : String) (template : Template) (s : σ) :
    Prop where
  logged : transform callback.logged context template (s, []) =
    ⟨(transform callback context template s).outcome,
      ((transform callback context template s).state, asked callback context template s),
      (transform callback context template s).record⟩
  /-- If it succeeds, it has asked for all of them, each once, and puts in what it was given. -/
  success (stored : Template) (done : (transform callback context template s).outcome = .ok stored) :
    asked callback context template s = literals template ∧ ∃ texts,
      ((literals template).mapM (Literal.store callback context) s).outcome = .ok texts ∧
        Stores template stored texts
  /-- If it fails, it fails with the first literal that does, and asks for none behind it. -/
  failure (failure : Failure) (failed : (transform callback context template s).outcome = .error failure) :
    ∃ before literal after texts, literals template = before ++ literal :: after ∧
      asked callback context template s = before ++ [literal] ∧
      (before.mapM (Literal.store callback context) s).outcome = .ok texts ∧
      (literal.store callback context (before.mapM (Literal.store callback context) s).state).outcome =
        .error failure
  /-- Where every text is given back, so is the source, character by character. -/
  unchanged (same : ∀ literal ∈ literals template, ∀ t,
      (literal.store callback context t).outcome = .ok literal.content) :
    (transform callback context template s).outcome = .ok template ∧ source template = text

/-- Storing a template asks for its literals in order, whatever the callback does, and puts
    in what it is given. -/
theorem inOrder_of_parse {text : String} {template : Template} (read : parse text = .ok template)
    (callback : Callback σ) (context : Context) (s : σ) : InOrder callback context text template s := by
  obtain ⟨list, logged⟩ := erases_transform callback context template s []
  have sweeps := coupled_transform callback context template s
  have loggedSweeps := coupled_transform callback.logged context template (s, [])
  obtain rfl : asked callback context template s = list := congrArg (·.state.2) logged
  rw [logged] at loggedSweeps
  refine ⟨logged, ?success, ?failure, ?unchanged⟩
  case success =>
    intro stored done
    obtain ⟨texts, swept, stores⟩ := sweeps.exists_of_ok done
    obtain ⟨_, loggedSwept, -⟩ := loggedSweeps.exists_of_ok done
    have all := logged_mapM (congrArg Report.outcome loggedSwept)
    rw [loggedSwept] at all
    exact ⟨all, texts, congrArg Report.outcome swept, stores⟩
  case failure =>
    intro failure failed
    have loggedSwept := loggedSweeps.eq_of_error failed
    obtain ⟨before, literal, after, texts, cut, list, done, stopped⟩ :=
      logged_mapM_error (congrArg Report.outcome loggedSwept)
    rw [loggedSwept] at list
    exact ⟨before, literal, after, texts, cut, list, done, stopped⟩
  case unchanged =>
    intro same
    have swept := mapM_of_same (s := s) same
    cases done : (transform callback context template s).outcome with
    | error failure =>
      rw [sweeps.eq_of_error done] at swept
      cases swept
    | ok stored =>
      obtain ⟨texts, report, stores⟩ := sweeps.exists_of_ok done
      rw [report] at swept
      refine ⟨congrArg Except.ok (eq_of_stores stores (Except.ok.inj swept)), ?_⟩
      have written := toList_source (spells_of_parse read).1
      rw [Span.source_spans] at written
      exact String.toList_inj.1 written

/-- A callback that counts its calls, changes the second text and refuses the third: the
    fourth is not asked for. -/
theorem inOrder_of_parse_refused :
    let callback : Callback Nat :=
      { execute := fun _ _ _ => return none
        transform := fun _ _ content _ count =>
          ⟨if count = 2 then .error .notEncrypted else .ok (if count = 1 then "changed" else content),
            count + 1, []⟩ }
    let text := "\\$\x7b[ $\x7b[ x ]\x7d$\x7b[ f(a: 'one', b: y, c: 'two') ]\x7d\\\\$\x7b[g(a: '', d: 'four')]\x7d"
    let template : Template :=
      [.raw "$\x7b[ ", .tag (.variable "x") (some "$\x7b[ x ]\x7d"),
        .tag (.call "f" [⟨"a", .text "one"⟩, ⟨"b", .variable "y"⟩, ⟨"c", .text "two"⟩])
          (some "$\x7b[ f(a: 'one', b: y, c: 'two') ]\x7d"),
        .raw "\\\\", .tag (.call "g" [⟨"a", .text ""⟩, ⟨"d", .text "four"⟩]) (some "$\x7b[g(a: '', d: 'four')]\x7d")]
    parse text = .ok template ∧
      (transform callback default template 0).outcome = .error .notEncrypted ∧
      asked callback default template 0 = [⟨"f", "a", "one"⟩, ⟨"f", "c", "two"⟩, ⟨"g", "a", ""⟩] ∧
      InOrder callback default text template 0 := by
  intro callback text template
  have read : parse text = .ok template := by decide +kernel
  exact ⟨read, rfl, rfl, inOrder_of_parse read callback default 0⟩

end Template

end RequestTemplate
