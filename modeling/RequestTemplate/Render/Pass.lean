import RequestTemplate.Dictionary
import RequestTemplate.Failure

/-!
# Passes

A pass is a computation that calls collaborators. The collaborators keep a state
between calls, and what happens is recorded in order. A pass that fails still
leaves its state and its record behind. The functions that templates call record
notes; a pass that renders a template records events, among them those notes.
-/

namespace RequestTemplate

/-- What a function is called with. -/
inductive ArgumentValue where
  | text (content : String)
  | bool (value : Bool)
  | null
  deriving DecidableEq, Inhabited

abbrev Arguments := Dictionary String ArgumentValue

/-- The argument of a name, if it is text. -/
def Arguments.text? (arguments : Arguments) (name : String) : Option String :=
  match arguments.lookup name with
  | some (.text content) => some content
  | _ => none

/-- What a function has to say beside its result. -/
inductive Note where
  | noPassword (service account : String)
  deriving DecidableEq, Inhabited

inductive Event where
  /-- A function is called under the name that the template uses. -/
  | called (name : String) (arguments : Arguments)
  /-- The failure of a function is rendered as empty text. -/
  | suppressed (name : String) (failure : Failure)
  | noted (note : Note)
  deriving Inhabited

/-- The line that a note writes to a log. -/
def Note.logLine : Note → String
  | noPassword service account =>
    "INFO No password found for '" ++ service ++ "' and '" ++ account ++ "'"

/-- The line that an event writes to a log, if it writes one. -/
def Event.logLine? : Event → Option String
  | called _ _ => none
  | suppressed name failure =>
    some ("WARNING Template function " ++ name ++ " failed, rendering empty: " ++ failure.message)
  | noted note => some note.logLine

/-- What a pass leaves behind. -/
structure Report (ε σ α : Type) where
  outcome : Except Failure α
  state : σ
  record : List ε

/-- A computation over a state `σ` that records values of `ε`. -/
def Pass (ε σ α : Type) : Type := σ → Report ε σ α

namespace Pass

variable {ε σ α β : Type}

/-- Runs one pass after another, which starts in the state that the first left. -/
def bind (p : Pass ε σ α) (f : α → Pass ε σ β) : Pass ε σ β := fun s =>
  match p s with
  | ⟨.error e, s, before⟩ => ⟨.error e, s, before⟩
  | ⟨.ok a, s, before⟩ =>
    match f a s with
    | ⟨outcome, s, after⟩ => ⟨outcome, s, before ++ after⟩

instance : Monad (Pass ε σ) where
  pure a := fun s => ⟨.ok a, s, []⟩
  bind := bind

def fail (failure : Failure) : Pass ε σ α := fun s => ⟨.error failure, s, []⟩

def emit (entry : ε) : Pass ε σ Unit := fun s => ⟨.ok (), s, [entry]⟩

/-- Runs a pass and hands its outcome on, also when it fails. -/
def attempt (p : Pass ε σ α) : Pass ε σ (Except Failure α) := fun s =>
  match p s with
  | ⟨outcome, s, record⟩ => ⟨.ok outcome, s, record⟩

def ofExcept : Except Failure α → Pass ε σ α
  | .ok a => pure a
  | .error e => fail e

/-- Runs a function's pass inside a pass that renders. -/
def noting (p : Pass Note σ α) : Pass Event σ α := fun s =>
  match p s with
  | ⟨outcome, s, notes⟩ => ⟨outcome, s, notes.map .noted⟩

theorem pure_apply (a : α) (s : σ) : (pure a : Pass ε σ α) s = ⟨.ok a, s, []⟩ := rfl

theorem bind_apply (p : Pass ε σ α) (f : α → Pass ε σ β) (s : σ) :
    (p >>= f) s =
      match p s with
      | ⟨.error e, s, before⟩ => ⟨.error e, s, before⟩
      | ⟨.ok a, s, before⟩ =>
        match f a s with
        | ⟨outcome, s, after⟩ => ⟨outcome, s, before ++ after⟩ := rfl

instance : LawfulMonad (Pass ε σ) := LawfulMonad.mk' (Pass ε σ)
  (fun p => by
    funext s
    show bind p (fun a => pure (id a)) s = p s
    unfold bind
    rcases p s with ⟨_ | a, t, record⟩
    · rfl
    · simp [pure_apply])
  (fun a f => by
    funext s
    show bind (fun s => ⟨.ok a, s, []⟩) f s = f a s
    unfold bind
    rcases h : f a s with ⟨outcome, t, record⟩
    simp [h])
  (fun p f g => by
    funext s
    show bind (bind p f) g s = bind p (fun a => bind (f a) g) s
    unfold bind
    rcases p s with ⟨_ | a, t, before⟩
    · rfl
    · rcases h : f a t with ⟨_ | b, u, middle⟩
      · simp [h]
      · rcases k : g b u with ⟨outcome, v, after⟩
        simp [h, k])

end Pass

end RequestTemplate
