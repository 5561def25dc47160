import RequestTemplate.Proofs.Lockstep
import RequestTemplate.Proofs.Secure
import RequestTemplate.Proofs.Stored

/-!
# Saved secrets

Saving a template encrypts the plain texts of its secure tags and changes nothing
else (`succeedsOn_transform`). Rendering what was saved decrypts them again, so it comes
to the same as rendering the plain texts in the places of the tags
(`renderSource_saved`). The encryptor may keep a state of its own, as long as no
other function sees it.
-/

namespace RequestTemplate

variable {σ κ : Type}

/-- What is encrypted is decrypted again. Decryption depends on the workspace and the
    bytes alone, and neither direction changes what `view` shows of the state. -/
structure Encryptor.Reversible (encryptor : Encryptor σ) (view : σ → κ) : Prop where
  reverses (workspace : String) (bytes : List UInt8) (s : σ) :
    ((encryptor.encrypt workspace bytes >>= encryptor.decrypt workspace) s).outcome = .ok bytes
  steady (workspace : String) (bytes : List UInt8) : (encryptor.decrypt workspace bytes).SteadyOn view
  unseen (workspace : String) (bytes : List UInt8) (s : σ) :
    view (encryptor.encrypt workspace bytes s).state = view s

/-- The secure function is registered under its name, and the other functions store their
    arguments as they are. -/
structure Registry.Stores (registry : Registry σ) (encryptor : Encryptor σ) : Prop where
  secure : registry.find? Secure.name = some (Secure.function encryptor)
  keeps (name : String) (f : TemplateFunction σ) (other : name ≠ Secure.name)
    (found : registry.find? name = some f) (argument text : String) (context : Context) :
    f.transform argument text context = pure text

/-- The secure function is registered under its name. The other functions store their
    arguments as they are, and of the state they see what `view` shows. -/
structure Registry.Separates (registry : Registry σ) (encryptor : Encryptor σ) (view : σ → κ) : Prop extends
    registry.Stores encryptor where
  apart (name : String) (f : TemplateFunction σ) (other : name ≠ Secure.name)
    (found : registry.find? name = some f) (arguments : Arguments) (context : Context) :
    (f.run arguments context).SameOn view (f.run arguments context)

/-- Passes that come to the same as far as is seen. -/
def Pass.sameOn (view : σ → κ) : Pass.Lockstep σ where
  Rel p q := p.SameOn view q
  pure a := sameOn_of_yieldsOn (yieldsOn_pure a) (yieldsOn_pure a)
  fail failure := sameOn_of_yieldsOn (yieldsOn_fail failure) (yieldsOn_fail failure)
  bind := sameOn_bind

/-- Rendering does not look at the spans of tags. -/
theorem Renderer.tokens_settled (r : Renderer σ) (expand : String → Pass Event σ String)
    (template : Template) : r.tokens expand (Template.settled template) = r.tokens expand template := by
  induction template with
  | nil => rfl
  | cons token rest ih =>
    rw [Template.settled] at ih ⊢
    rw [List.map_cons]
    cases token with
    | raw content => rw [Token.settled, tokens, ih, tokens]
    | tag value span => rw [Token.settled, tokens, ih, tokens]

namespace Secret

/-- The token with the text of a secure tag in the place of the tag. -/
def exposed (token : Token) : Token :=
  match token with
  | .tag (.call name [⟨_, .text content⟩]) _ => if name = Secure.name then .raw content else token
  | token => token

/-- Every secure tag has one argument, a value that is a plain text. -/
def Plain (template : Template) : Prop :=
  ∀ arguments span, .tag (.call Secure.name arguments) span ∈ template →
    ∃ content, arguments = [⟨"value", .text content⟩] ∧ content ≠ "" ∧
      ¬ Secure.mark.toList <+: content.toList

/-- The token as it was, or a secure tag that holds bytes in the place of its text. -/
inductive Saved (encryptor : Encryptor σ) (view : σ → κ) (workspace : String) : Token → Token → Prop
  | same {token : Token} (kept : exposed token = token) : Saved encryptor view workspace token token
  | secret {content : String} {cipher : List UInt8} (span stored : Option String)
      (decrypts : (encryptor.decrypt workspace cipher).YieldsOn view (.ok (Utf8.encode content))) :
      Saved encryptor view workspace (.tag (.call Secure.name [⟨"value", .text content⟩]) span)
        (.tag (.call Secure.name [⟨"value", .text (Secure.mark ++ Base64.encode cipher)⟩]) stored)

variable {view : σ → κ} {encryptor : Encryptor σ} {registry : Registry σ} {workspace : String}

theorem exposed_other {name : String} (other : name ≠ Secure.name) (arguments : List Argument)
    (span : Option String) : exposed (.tag (.call name arguments) span) = .tag (.call name arguments) span := by
  unfold exposed
  split
  · rename_i same
    obtain ⟨⟨rfl, rfl⟩, rfl⟩ := same
    exact if_neg other
  · rfl

/-! ## Saving -/

theorem succeedsOn_encrypt (reversible : encryptor.Reversible view) (workspace : String) (bytes : List UInt8) :
    (encryptor.encrypt workspace bytes).SucceedsOn view
      fun cipher => (encryptor.decrypt workspace cipher).YieldsOn view (.ok bytes) := by
  intro s
  obtain ⟨cipher, encrypts, decrypts⟩ := Pass.outcome_bind_eq_ok.1 (reversible.reverses workspace bytes s)
  obtain ⟨outcome, yields⟩ := reversible.steady workspace cipher
  obtain rfl : outcome = .ok bytes := (yields _).1.symm.trans decrypts
  exact ⟨cipher, encrypts, reversible.unseen workspace bytes s, yields⟩

theorem transform_secure (stores : registry.Stores encryptor) (argument text : String) (context : Context) :
    registry.callback.transform Secure.name argument text context =
      Secure.transform encryptor argument text context := by
  show registry.transform Secure.name argument text context = _
  rw [Registry.transform, stores.secure]
  rfl

/-- The other functions, and those that are not there, keep their arguments. -/
theorem transformArguments_other (stores : registry.Stores encryptor) {name : String}
    (other : name ≠ Secure.name) (context : Context) (arguments : List Argument) :
    Template.transformArguments registry.callback context name arguments = pure arguments := by
  refine Template.transformArguments_of_kept fun argument text _ => ?_
  show registry.transform name argument text context = pure text
  rw [Registry.transform]
  cases found : registry.find? name with
  | none => rfl
  | some f => exact stores.keeps name f other found argument text context

theorem succeedsOn_transformArguments (reversible : encryptor.Reversible view)
    (separates : registry.Separates encryptor view) (present : workspace ≠ "") {context : Context}
    (known : context.workspaceId = some workspace) {content : String} (filled : content ≠ "")
    (plain : ¬ Secure.mark.toList <+: content.toList) :
    (Template.transformArguments registry.callback context Secure.name
      [⟨"value", .text content⟩]).SucceedsOn view fun stored => ∃ cipher,
        stored = [⟨"value", .text (Secure.mark ++ Base64.encode cipher)⟩] ∧
          (encryptor.decrypt workspace cipher).YieldsOn view (.ok (Utf8.encode content)) := by
  rw [Template.transformArguments, transform_secure separates.toStores]
  refine Pass.succeedsOn_bind (Secure.succeedsOn_transform present known filled plain
    (succeedsOn_encrypt reversible workspace _)) fun stored saved => ?_
  obtain ⟨cipher, rfl, decrypts⟩ := saved
  exact Pass.succeedsOn_pure ⟨cipher, rfl, decrypts⟩

/-- Saving succeeds, and what is saved is the template with its secrets encrypted. -/
theorem succeedsOn_transform (reversible : encryptor.Reversible view)
    (separates : registry.Separates encryptor view) (present : workspace ≠ "") {context : Context}
    (known : context.workspaceId = some workspace) {template : Template} (plain : Plain template) :
    (Template.transform registry.callback context template).SucceedsOn view
      (List.Forall₂ (Saved encryptor view workspace) template) := by
  induction template with
  | nil => exact Pass.succeedsOn_pure .nil
  | cons token rest ih =>
    have later := ih fun arguments span member => plain arguments span (List.mem_cons_of_mem _ member)
    rcases token with content | ⟨⟨name⟩ | ⟨name, arguments⟩, span⟩
    · exact Pass.succeedsOn_bind later fun others saved => Pass.succeedsOn_pure (.cons (.same rfl) saved)
    · exact Pass.succeedsOn_bind later fun others saved => Pass.succeedsOn_pure (.cons (.same rfl) saved)
    · by_cases secure : name = Secure.name
      · subst secure
        obtain ⟨content, rfl, filled, unmarked⟩ := plain arguments span List.mem_cons_self
        refine Pass.succeedsOn_bind (succeedsOn_transformArguments reversible separates present known filled
          unmarked) fun stored encrypted => ?_
        obtain ⟨cipher, rfl, decrypts⟩ := encrypted
        refine Pass.succeedsOn_bind later fun others saved => Pass.succeedsOn_pure (.cons ?_ saved)
        obtain ⟨kept, eq⟩ := Token.withExpression_tag (.call Secure.name [⟨"value", .text content⟩])
          (.call Secure.name [⟨"value", .text (Secure.mark ++ Base64.encode cipher)⟩]) span
        rw [eq]
        exact .secret span kept decrypts
      · rw [Template.transform, transformArguments_other separates.toStores secure, pure_bind]
        refine Pass.succeedsOn_bind later fun others saved => Pass.succeedsOn_pure (.cons ?_ saved)
        rw [Token.withExpression, if_pos rfl]
        exact .same (exposed_other secure arguments span)

/-! ## Rendering -/

/-- A call of the secure function sees nothing of the state, one of another function
    only what it may. -/
theorem sameOn_call (reversible : encryptor.Reversible view) (separates : registry.Separates encryptor view)
    {r : Renderer σ} (calls : r.callback = registry.callback) (name : String) (arguments : Arguments) :
    (r.call name arguments).SameOn view (r.call name arguments) := by
  have runs : (r.callback.execute name arguments r.context).SameOn view
      (r.callback.execute name arguments r.context) := by
    rw [calls]
    show (registry.execute name arguments r.context).SameOn view (registry.execute name arguments r.context)
    rw [Registry.execute, Registry.get]
    cases found : registry.find? name with
    | none => exact Pass.sameOn_of_steadyOn ⟨_, Pass.yieldsOn_bind_error (Pass.yieldsOn_fail _) _⟩
    | some f =>
      rw [Pass.ofExcept, pure_bind]
      by_cases secure : name = Secure.name
      · subst secure
        obtain rfl : Secure.function encryptor = f := Option.some.inj (separates.secure.symm.trans found)
        refine Pass.sameOn_of_steadyOn ?_
        refine Pass.steadyOn_bind (Secure.steadyOn_run reversible.steady arguments r.context) fun text => ?_
        exact Pass.steadyOn_pure _
      · exact separates.apart name f secure found arguments r.context
  refine Pass.sameOn_bind (Pass.sameOn_of_yieldsOn (Pass.yieldsOn_emit _) (Pass.yieldsOn_emit _)) fun _ => ?_
  refine Pass.sameOn_bind (Pass.sameOn_attempt (Pass.sameOn_noting runs)) fun result => ?_
  refine Pass.sameOn_of_steadyOn ?_
  cases result with
  | ok text => exact Pass.steadyOn_pure _
  | error failure =>
    simp only
    split_ifs
    · exact Pass.steadyOn_fail _
    · exact Pass.steadyOn_bind ⟨_, Pass.yieldsOn_emit _⟩ fun _ => Pass.steadyOn_pure _
    · exact Pass.steadyOn_fail _

theorem inStep_sameOn (reversible : encryptor.Reversible view) (separates : registry.Separates encryptor view)
    {r : Renderer σ} (calls : r.callback = registry.callback) : r.InStep (Pass.sameOn view) r where
  scope := rfl
  missing name := by
    refine Pass.sameOn_of_steadyOn ?_
    unfold Renderer.missing
    split_ifs
    · exact Pass.steadyOn_pure _
    · exact Pass.steadyOn_fail _
  call name arguments := sameOn_call reversible separates calls name arguments

/-- A saved secret is rendered as its text. -/
theorem sameOn_tokens (reversible : encryptor.Reversible view) (separates : registry.Separates encryptor view)
    {r : Renderer σ} (calls : r.callback = registry.callback) (present : workspace ≠ "")
    (known : r.context.workspaceId = some workspace) {expand : String → Pass Event σ String}
    (expands : ∀ name, (expand name).SameOn view (expand name)) {template stored : Template}
    (saved : List.Forall₂ (Saved encryptor view workspace) template stored) :
    (r.tokens expand stored).SameOn view (r.tokens expand (template.map exposed)) := by
  induction saved with
  | nil => exact (Pass.sameOn view).pure _
  | @cons token _ _ _ head tail ih =>
    rw [List.map_cons]
    cases head with
    | same kept =>
      rw [kept]
      cases token with
      | raw content => exact Pass.sameOn_bind ih fun _ => (Pass.sameOn view).pure _
      | tag value span =>
        refine Pass.sameOn_bind ((inStep_sameOn reversible separates calls).expression expands value) fun _ => ?_
        exact Pass.sameOn_bind ih fun _ => (Pass.sameOn view).pure _
    | @secret content cipher span kept decrypts =>
      -- the call decrypts in every state, so only its text is left of it
      have reveals : (Secure.run encryptor [("value", .text (Secure.mark ++ Base64.encode cipher))]
          r.context).YieldsOn view (.ok content) := Secure.yieldsOn_run present known rfl decrypts
      have renders : (r.expression expand (.call Secure.name
          [⟨"value", .text (Secure.mark ++ Base64.encode cipher)⟩])).YieldsOn view (.ok content) :=
        Secure.yieldsOn_call separates.secure calls reveals
      refine Pass.sameOn_bind_of_yieldsOn renders ?_
      exact Pass.sameOn_bind ih fun _ => (Pass.sameOn view).pure _

/-- Saving succeeds and changes nothing that other functions see. What is saved is
    rendered to the same text or the same failure as the template is with the texts of
    its secure tags in their places. -/
theorem renderSource_saved (reversible : encryptor.Reversible view)
    (separates : registry.Separates encryptor view) {r : Renderer σ} (calls : r.callback = registry.callback)
    (present : workspace ≠ "") (rendering : r.context.workspaceId = some workspace) {context : Context}
    (saving : context.workspaceId = some workspace) {text : String} {template : Template}
    (read : Template.parse text = .ok template) (plain : Plain template) (state : σ) :
    ∃ stored, (Template.transform registry.callback context template state).outcome = .ok stored ∧
      view (Template.transform registry.callback context template state).state = view state ∧
      (r.renderSource (Template.source stored)).SameOn view (r.render (template.map exposed)) := by
  obtain ⟨stored, done, kept, saved⟩ := succeedsOn_transform reversible separates present saving plain state
  obtain ⟨spans, spells, proper, -⟩ := Template.spells_of_rewritten (Template.rewritten_of_transform done)
    (Template.spells_of_parse read).1 (Span.proper_spans _)
  refine ⟨stored, done, kept, ?_⟩
  rw [Renderer.renderSource, Template.parse_of_spells spells proper]
  show (r.tokens _ (Template.settled stored)).SameOn view _
  rw [Renderer.tokens_settled]
  refine sameOn_tokens reversible separates calls present rendering ?_ saved
  exact (inStep_sameOn reversible separates calls).expand Renderer.maxDepth

/-- A secret of a quote, a backslash and an opener is saved by an encryptor that counts
    what it encrypts, and rendered between calls of a function that counts itself. -/
theorem renderSource_saved_opener :
    let encryptor : Encryptor (Nat × Nat) :=
      { encrypt := fun _ bytes s => ⟨.ok (UInt8.ofNat s.1 :: bytes.reverse), (s.1 + 1, s.2), []⟩
        decrypt := fun _ bytes => return bytes.tail.reverse }
    let count : TemplateFunction (Nat × Nat) :=
      { descriptor := { name := "count" }
        run := fun _ _ s => ⟨.ok (some (toString s.2)), (s.1, s.2 + 1), []⟩ }
    let registry : Registry (Nat × Nat) :=
      { index := [(Secure.name, Secure.function encryptor), ("count", count)] }
    let r : Renderer (Nat × Nat) :=
      { scope := [("v", "$\x7b[ count() ]\x7d")], callback := registry.callback
        context := { workspaceId := some "k" } }
    let saving : Context := { workspaceId := some "k", purpose := .preview }
    let text := "a\\\\$\x7b[ secure(value: 'é\"\\\\$\x7b[') ]\x7d$\x7b[ count() ]\x7d$\x7b[ v ]\x7d"
    let template : Template :=
      [.raw "a\\\\", .tag (.call "secure" [⟨"value", .text "é\"\\$\x7b["⟩])
          (some "$\x7b[ secure(value: 'é\"\\\\$\x7b[') ]\x7d"),
        .tag (.call "count" []) (some "$\x7b[ count() ]\x7d"), .tag (.variable "v") (some "$\x7b[ v ]\x7d")]
    encryptor.Reversible Prod.snd ∧ registry.Separates encryptor Prod.snd ∧ r.callback = registry.callback ∧
      r.context.workspaceId = some "k" ∧ saving.workspaceId = some "k" ∧
      Template.parse text = .ok template ∧ Plain template ∧
      ∃ stored, (Template.transform registry.callback saving template (7, 0)).outcome = .ok stored ∧
        (r.renderSource (Template.source stored) (8, 0)).outcome = .ok "a\\\\é\"\\$\x7b[01" := by
  intro encryptor count registry r saving text template
  have reversible : encryptor.Reversible (Prod.snd : Nat × Nat → Nat) := by
    refine ⟨fun workspace bytes s => ?_, fun workspace bytes => Pass.steadyOn_pure _, fun _ _ _ => rfl⟩
    show Except.ok bytes.reverse.reverse = Except.ok bytes
    rw [List.reverse_reverse]
  have other : ∀ name f, name ≠ Secure.name → registry.find? name = some f → f = count := by
    intro name f other found
    have unlike : (name == Secure.name) = false := by simpa using other
    by_cases same : name = "count"
    · subst same
      exact (Option.some.inj found).symm
    · have unlisted : (name == "count") = false := by simpa using same
      have missing : registry.find? name = none := by
        simp [registry, Registry.find?, List.lookup_cons, unlike, unlisted]
      exact absurd (missing.symm.trans found) (by simp)
  have separates : registry.Separates encryptor (Prod.snd : Nat × Nat → Nat) := by
    refine ⟨⟨rfl, ?_⟩, ?_⟩
    · intro name f unlike found argument text context
      obtain rfl := other name f unlike found
      rfl
    · rintro name f unlike found arguments context ⟨_, s⟩ ⟨_, t⟩ rfl
      obtain rfl := other name f unlike found
      exact ⟨rfl, rfl⟩
  have calls : r.callback = registry.callback := rfl
  have rendered : r.context.workspaceId = some "k" := rfl
  have saved : saving.workspaceId = some "k" := rfl
  have read : Template.parse text = .ok template := by cbv
  have plain : Plain template := by
    intro arguments span member
    simp only [template, Secure.name, List.mem_cons, Token.tag.injEq, Expression.call.injEq, reduceCtorEq,
      false_and, false_or, or_false, List.not_mem_nil, String.reduceEq, true_and] at member
    obtain ⟨rfl, -⟩ := member
    exact ⟨_, rfl, by decide, by decide⟩
  obtain ⟨stored, done, -, same⟩ := renderSource_saved reversible separates calls (by decide) rendered saved
    read plain (7, 0)
  refine ⟨reversible, separates, calls, rendered, saved, read, plain, stored, done, ?_⟩
  rw [(same (8, 0) (0, 0) rfl).1]
  cbv

end Secret

end RequestTemplate
