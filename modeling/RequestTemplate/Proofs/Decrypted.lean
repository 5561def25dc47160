import RequestTemplate.Function.Secret
import RequestTemplate.Proofs.Canonical
import RequestTemplate.Proofs.Dictionary
import RequestTemplate.Proofs.Joined
import RequestTemplate.Proofs.Secure

/-!
# Decrypted templates

Decryption puts the plain text of every secure tag in its place
(`revealed_of_decryptTokens`). It knows no variables: a secure tag is read as if
its arguments that are variables were not there (`literal`). Where the texts join,
the decrypted source is rendered as that template is (`renderSource_decrypt`).
-/

namespace RequestTemplate

variable {σ : Type}

/-- Decryption depends on the workspace and the bytes alone. -/
def Encryptor.Steady (encryptor : Encryptor σ) : Prop :=
  ∀ workspace bytes, (encryptor.decrypt workspace bytes).Steady

/-- The value of an operand that is no variable. -/
def Operand.constant? : Operand → Option ArgumentValue
  | .text content => some (.text content)
  | .bool value => some (.bool value)
  | .null => some .null
  | .variable _ => none

/-! ## Arguments by name -/

theorem text?_ofList {pairs : List (String × ArgumentValue)} (distinct : (pairs.map Prod.fst).Nodup)
    (name content : String) :
    Arguments.text? (Dictionary.ofList pairs) name = some content ↔ (name, .text content) ∈ pairs := by
  rw [← Dictionary.lookup_ofList distinct, Arguments.text?]
  split
  · rename_i found
    simp [found]
  · rename_i other
    exact ⟨nofun, fun found => (other content found).elim⟩

namespace Secret

/-- The arguments of a call that are no variables. -/
def constants (arguments : List Argument) : List (String × ArgumentValue) :=
  arguments.filterMap fun a => a.value.constant?.map (a.name, ·)

/-- The token with the variables left out of a secure tag. -/
def literal (token : Token) : Token :=
  match token with
  | .tag (.call name arguments) span =>
    if name = Secure.name then
      (Token.tag (.call name arguments) span).withExpression
        (.call name (arguments.filter fun a => a.value.constant?.isSome))
    else token
  | token => token

/-! ## Constants by name -/

theorem nodup_filterMap_name {arguments : List Argument}
    {f : Argument → Option (String × ArgumentValue)} (named : ∀ a pair, f a = some pair → pair.1 = a.name)
    (distinct : (arguments.map Argument.name).Nodup) :
    ((arguments.filterMap f).map Prod.fst).Nodup := by
  refine List.Nodup.sublist ?_ distinct
  induction arguments with
  | nil => simp
  | cons argument rest ih =>
    have later := ih (List.nodup_cons.1 distinct).2
    cases kept : f argument with
    | none =>
      rw [List.filterMap_cons_none kept]
      exact later.cons _
    | some pair =>
      rw [List.filterMap_cons_some kept, List.map_cons, List.map_cons, named argument pair kept]
      exact later.cons_cons _

/-- Decryption finds the text that a call finds among the constants. -/
theorem text?_constants {arguments : List Argument} (distinct : (arguments.map Argument.name).Nodup)
    (name : String) :
    Arguments.text? (Dictionary.ofList (constants arguments)) name =
      (textArguments arguments).text? name := by
  refine Option.ext fun content => ?_
  rw [constants, textArguments, text?_ofList (nodup_filterMap_name ?_ distinct),
    text?_ofList (nodup_filterMap_name ?_ distinct)]
  · have plain (argument : Argument) :
        argument.value.constant?.map (argument.name, ·) = some (name, .text content) ↔
          argument = ⟨name, .text content⟩ := by
      obtain ⟨other, text | _ | _ | _⟩ := argument <;> simp [Operand.constant?]
    simp only [List.mem_filterMap, plain]
    constructor
    · rintro ⟨argument, member, rfl⟩
      exact ⟨_, member, rfl⟩
    · rintro ⟨⟨other, text | _ | _ | _⟩, member, eq⟩ <;> simp at eq
      obtain ⟨rfl, rfl⟩ := eq
      exact ⟨_, member, rfl⟩
  · rintro ⟨other, text | _ | _ | _⟩ pair eq <;> simp at eq
    rw [← eq]
  · rintro argument pair eq
    obtain ⟨value, -, rfl⟩ := Option.map_eq_some_iff.1 eq
    rfl

/-! ## Tokens in the place of tags -/

/-- The token as it was, or the plain text of a secure tag. -/
inductive Revealed (encryptor : Encryptor σ) (context : Context) : Token → Token → Prop
  | same {token : Token} (kept : literal token = token) : Revealed encryptor context token token
  | plain {arguments : List Argument} {span : Option String} {text : String}
      (reveals : (Secure.run encryptor (textArguments arguments) context).Yields (.ok text)) :
      Revealed encryptor context (.tag (.call Secure.name arguments) span) (.raw text)

theorem revealed_of_decryptTokens {encryptor : Encryptor σ} (steady : encryptor.Steady) {context : Context}
    {template plain : Template} {state : σ}
    (done : (decryptTokens encryptor context template state).outcome = .ok plain) :
    List.Forall₂ (Revealed encryptor context) template plain := by
  induction template generalizing plain state with
  | nil =>
    obtain rfl : [] = plain := Except.ok.inj done
    exact .nil
  | cons token rest ih =>
    rcases token with content | ⟨⟨name⟩ | ⟨name, arguments⟩, span⟩
    · simp only [decryptTokens, Pass.outcome_bind_eq_ok, Pass.outcome_pure, Except.ok.injEq] at done
      obtain ⟨others, later, rfl⟩ := done
      exact .cons (.same rfl) (ih later)
    · simp only [decryptTokens, Pass.outcome_bind_eq_ok, Pass.outcome_pure, Except.ok.injEq] at done
      obtain ⟨others, later, rfl⟩ := done
      exact .cons (.same rfl) (ih later)
    · by_cases secure : name = Secure.name
      · subst secure
        simp only [decryptTokens, if_true, map_eq_pure_bind, bind_assoc, pure_bind,
          Pass.outcome_bind_eq_ok, Pass.outcome_pure, Except.ok.injEq] at done
        obtain ⟨text, revealed, others, later, rfl⟩ := done
        have alone : (Secure.run encryptor (textArguments arguments) context).SteadyOn id := by
          refine Secure.steadyOn_run ?_ _ _
          exact steady
        obtain ⟨outcome, yields⟩ := alone
        obtain rfl : outcome = .ok text := (yields state).1.symm.trans revealed
        exact .cons (.plain yields) (ih later)
      · simp only [decryptTokens, if_neg secure, pure_bind, Pass.outcome_bind_eq_ok, Pass.outcome_pure,
          Except.ok.injEq] at done
        obtain ⟨others, later, rfl⟩ := done
        exact .cons (.same (if_neg secure)) (ih later)

/-! ## Rendering the plain texts -/

variable {encryptor : Encryptor σ} {registry : Registry σ} {r : Renderer σ}

theorem operand_constant {value : Operand} {constant : ArgumentValue}
    (kept : value.constant? = some constant) (expand : String → Pass Event σ String) :
    Renderer.operand expand value = pure constant := by
  rcases value with content | _ | _ | _ <;> simp only [Operand.constant?, Option.some.injEq, reduceCtorEq] at kept
  all_goals
    subst kept
    rfl

theorem arguments_constants (expand : String → Pass Event σ String) (arguments : List Argument) :
    Renderer.arguments expand (arguments.filter fun a => a.value.constant?.isSome) =
      pure (constants arguments) := by
  induction arguments with
  | nil => rfl
  | cons argument rest ih =>
    cases kept : argument.value.constant? with
    | none =>
      rw [List.filter_cons_of_neg (by simp [kept]), ih, constants, constants,
        List.filterMap_cons_none (by simp [kept])]
    | some constant =>
      have first : constants (argument :: rest) = (argument.name, constant) :: constants rest :=
        List.filterMap_cons_some (by simp [kept])
      rw [List.filter_cons_of_pos (by simp [kept]), Renderer.arguments, operand_constant kept, ih, first]
      simp

theorem yields_expression (found : registry.find? Secure.name = some (Secure.function encryptor))
    (calls : r.callback = registry.callback) (expand : String → Pass Event σ String)
    {arguments : List Argument} (distinct : (arguments.map Argument.name).Nodup) {text : String}
    (reveals : (Secure.run encryptor (textArguments arguments) r.context).Yields (.ok text)) :
    (r.expression expand
      (.call Secure.name (arguments.filter fun a => a.value.constant?.isSome))).Yields (.ok text) := by
  have constant : (Secure.run encryptor (Dictionary.ofList (constants arguments)) r.context).YieldsOn id
      (.ok text) := by
    rwa [Secure.run_congr encryptor (text?_constants distinct "value")]
  rw [Renderer.expression, arguments_constants, pure_bind]
  exact Secure.yieldsOn_call found calls constant

theorem nodup_of_intact {name : String} {arguments : List Argument} {span : Option String}
    (intact : (Token.tag (.call name arguments) span).Intact) : (arguments.map Argument.name).Nodup := by
  obtain ⟨-, body, spells, -⟩ := intact
  cases spells with
  | tag read written => exact (Tag.wellFormed_of_read read).2.1

theorem same_tokens (found : registry.find? Secure.name = some (Secure.function encryptor))
    (calls : r.callback = registry.callback) (expand : String → Pass Event σ String)
    {template plain : Template} (revealed : List.Forall₂ (Revealed encryptor r.context) template plain)
    (intact : Template.Intact template) :
    (r.tokens expand (template.map literal)).Same (r.tokens expand plain) := by
  induction revealed with
  | nil => exact Pass.same_refl _
  | @cons token _ _ _ head tail ih =>
    have later := ih intact.tail
    rw [List.map_cons]
    cases head with
    | same kept =>
      rw [kept]
      cases token with
      | raw content => exact Pass.sameOn_bind later fun _ => Pass.same_refl _
      | tag value span =>
        exact Pass.sameOn_bind (Pass.same_refl _) fun _ => Pass.sameOn_bind later fun _ => Pass.same_refl _
    | @plain arguments span text reveals =>
      have distinct := nodup_of_intact (intact (.call Secure.name arguments) span (by simp))
      have renders := yields_expression found calls expand distinct reveals
      obtain ⟨kept, eq⟩ : ∃ kept, literal (.tag (.call Secure.name arguments) span) =
          .tag (.call Secure.name (arguments.filter fun a => a.value.constant?.isSome)) kept := by
        rw [literal, if_pos rfl]
        exact Token.withExpression_tag _ _ span
      rw [eq]
      refine Pass.sameOn_trans (Pass.sameOn_bind_of_yieldsOn renders (Pass.same_refl _)) ?_
      exact Pass.sameOn_bind later fun _ => Pass.same_refl _

theorem intact_of_revealed {context : Context} {template plain : Template}
    (revealed : List.Forall₂ (Revealed encryptor context) template plain)
    (intact : Template.Intact template) : Template.Intact plain := by
  intro value span member
  induction revealed with
  | nil => simp at member
  | cons head tail ih =>
    rcases List.mem_cons.1 member with rfl | member
    · cases head with
      | same kept => exact intact value span (by simp)
    · exact ih intact.tail member

/-- What decryption returns is the template with plain texts for its secure tags. It
    is read back as that if and only if the texts join, and then it is rendered as
    the template is without the variables of its secure tags. -/
theorem renderSource_decrypt (steady : encryptor.Steady)
    (found : registry.find? Secure.name = some (Secure.function encryptor))
    (calls : r.callback = registry.callback) {text result : String} {state : σ}
    (done : (decrypt encryptor r.context text state).outcome = .ok result) :
    ∃ template plain, Template.parse text = .ok template ∧
      (decryptTokens encryptor r.context template state).outcome = .ok plain ∧
      result = Template.source plain ∧
      (Template.Joins plain ↔ Template.parse result = .ok (Template.merged plain)) ∧
      (Template.Joins plain →
        (r.renderSource result).Same (r.render (template.map literal))) := by
  rw [decrypt] at done
  cases read : Template.parse text with
  | error e =>
    rw [read] at done
    exact absurd done (by simp)
  | ok template =>
    rw [read] at done
    simp only at done
    rw [map_eq_pure_bind, Pass.outcome_bind_eq_ok] at done
    obtain ⟨plain, decrypted, written⟩ := done
    obtain rfl := Except.ok.inj written
    have revealed := revealed_of_decryptTokens steady decrypted
    have intact := Template.intact_of_parse read
    have joins := Template.joins_iff (intact_of_revealed revealed intact)
    refine ⟨template, plain, rfl, decrypted, rfl, joins, fun joined => ?_⟩
    have same := same_tokens found calls (r.expand Renderer.maxDepth) revealed intact
    have shown : r.renderSource (Template.source plain) = r.tokens (r.expand Renderer.maxDepth) plain := by
      rw [Renderer.renderSource, joins.1 joined]
      exact Renderer.tokens_merged r _ plain
    rw [shown]
    exact Pass.sameOn_symm same

/-- A plain text with an opener is escaped behind backslashes and joins the texts on
    both sides of it; a variable beside it is left out. -/
theorem renderSource_decrypt_opener :
    let encryptor : Encryptor Unit :=
      { encrypt := fun _ bytes => return bytes, decrypt := fun _ bytes => return bytes }
    let registry : Registry Unit := { index := [(Secure.name, Secure.function encryptor)] }
    let r : Renderer Unit :=
      { scope := [("v", "w")], callback := registry.callback, context := { workspaceId := some "k" } }
    let text := "a\\\\$\x7b[ secure(value: 'YENC_JHtbeA==', n: v) ]\x7d b$\x7b[ v ]\x7d"
    let result := "a\\\\\\$\x7b[x b$\x7b[ v ]\x7d"
    encryptor.Steady ∧ registry.find? Secure.name = some (Secure.function encryptor) ∧
      r.callback = registry.callback ∧ (decrypt encryptor r.context text ()).outcome = .ok result ∧
      ∃ template plain, Template.parse text = .ok template ∧ Template.Joins plain ∧
        (r.renderSource result).Same (r.render (template.map literal)) := by
  intro encryptor registry r text result
  have steady : encryptor.Steady := fun _ bytes => Pass.steadyOn_pure bytes
  have found : registry.find? Secure.name = some (Secure.function encryptor) := rfl
  have done : (decrypt encryptor r.context text ()).outcome = .ok result := by cbv
  obtain ⟨template, plain, read, decrypted, -, joins, same⟩ := renderSource_decrypt steady found rfl done
  have tokens : plain = [.raw "a\\\\", .raw "$\x7b[x", .raw " b",
      .tag (.variable "v") (some "$\x7b[ v ]\x7d")] := by
    have tokensOf : Template.parse text = .ok [.raw "a\\\\",
        .tag (.call "secure" [⟨"value", .text "YENC_JHtbeA=="⟩, ⟨"n", .variable "v"⟩])
          (some "$\x7b[ secure(value: 'YENC_JHtbeA==', n: v) ]\x7d"),
        .raw " b", .tag (.variable "v") (some "$\x7b[ v ]\x7d")] := by cbv
    obtain rfl := Except.ok.inj (tokensOf.symm.trans read)
    exact (Except.ok.inj decrypted).symm
  have reread : Template.parse result = .ok (Template.merged plain) := by
    rw [tokens]
    cbv
  have joined := joins.2 reread
  exact ⟨steady, found, rfl, done, template, plain, read, joined, same joined⟩

/-- The text that a variable stands for is lost with the variable, and a backslash at
    the end of a plain text hides the tag behind it. -/
theorem renderSource_decrypt_ne :
    let encryptor : Encryptor Unit :=
      { encrypt := fun _ bytes => return bytes, decrypt := fun _ bytes => return bytes }
    let registry : Registry Unit := { index := [(Secure.name, Secure.function encryptor)] }
    let r : Renderer Unit :=
      { scope := [("v", "YENC_eA==")], callback := registry.callback, context := { workspaceId := some "k" } }
    (∃ result, (decrypt encryptor r.context "$\x7b[ secure(value: v) ]\x7d" ()).outcome = .ok result ∧
      (r.renderSource result ()).outcome ≠ (r.renderSource "$\x7b[ secure(value: v) ]\x7d" ()).outcome) ∧
      ∃ result, (decrypt encryptor r.context
          "$\x7b[ secure(value: 'YENC_XA==') ]\x7d$\x7b[ v ]\x7d" ()).outcome = .ok result ∧
        (r.renderSource result ()).outcome ≠
          (r.renderSource "$\x7b[ secure(value: 'YENC_XA==') ]\x7d$\x7b[ v ]\x7d" ()).outcome := by
  intro encryptor registry r
  have dropped : (decrypt encryptor r.context "$\x7b[ secure(value: v) ]\x7d" ()).outcome = .ok "" := by cbv
  have empty : (r.renderSource "" ()).outcome = .ok "" := by cbv
  have looked : (r.renderSource "$\x7b[ secure(value: v) ]\x7d" ()).outcome = .ok "x" := by cbv
  have hidden : (decrypt encryptor r.context
      "$\x7b[ secure(value: 'YENC_XA==') ]\x7d$\x7b[ v ]\x7d" ()).outcome = .ok "\\$\x7b[ v ]\x7d" := by cbv
  have literal : (r.renderSource "\\$\x7b[ v ]\x7d" ()).outcome = .ok "$\x7b[ v ]\x7d" := by cbv
  have live : (r.renderSource "$\x7b[ secure(value: 'YENC_XA==') ]\x7d$\x7b[ v ]\x7d" ()).outcome =
      .ok "\\YENC_eA==" := by cbv
  refine ⟨⟨_, dropped, ?_⟩, _, hidden, ?_⟩
  · rw [empty, looked]
    simp
  · rw [literal, live]
    simp

end Secret

end RequestTemplate
