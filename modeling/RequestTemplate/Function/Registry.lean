import RequestTemplate.Function.Descriptor
import RequestTemplate.Render.Callback

/-!
# The registry of functions

Functions by name and alias. A function is registered under all its names or, if
one of them is taken, not at all. A registry answers the calls of a pass: the
name that a template uses finds the function.
-/

namespace RequestTemplate

variable {σ : Type}

structure TemplateFunction (σ : Type) where
  descriptor : Descriptor
  run : Arguments → Context → Pass Note σ (Option String)
  /-- Rewrites the text of an argument before it is stored. Most functions leave
      it alone. -/
  transform : (argument text : String) → Context → Pass Note σ String := fun _ text _ => pure text

structure Registry (σ : Type) where
  /-- The functions in the order in which they were registered. -/
  functions : List (TemplateFunction σ) := []
  /-- Every name with its function. -/
  index : Dictionary String (TemplateFunction σ) := []

namespace Registry

def find? (r : Registry σ) (name : String) : Option (TemplateFunction σ) :=
  r.index.lookup name

def contains (r : Registry σ) (name : String) : Bool :=
  (r.find? name).isSome

def get (r : Registry σ) (name : String) : Except Failure (TemplateFunction σ) :=
  match r.find? name with
  | some f => .ok f
  | none => .error (.functionNotFound name)

/-- Adds a function, unless one of its names is taken. -/
def register (r : Registry σ) (f : TemplateFunction σ) : Except Failure (Registry σ) :=
  let names := f.descriptor.names
  match names.find? r.contains with
  | some name => .error (.alreadyRegistered name)
  | none =>
    .ok ⟨r.functions ++ [f], names.foldl (fun index name => index.insert name f) r.index⟩

/-! ## Registration in place -/

/-- Computations that change a registry in place, also when they fail. -/
abbrev InPlace (σ : Type) := ExceptT Failure (StateM (Registry σ))

/-- What a computation comes to, and the registry that it leaves. -/
def InPlace.on {α : Type} (p : InPlace σ α) (r : Registry σ) : Except Failure α × Registry σ := p.run.run r

def refuseTaken (name : String) : InPlace σ Unit := do
  if (← getThe (Registry σ)).contains name then throw (.alreadyRegistered name)

def enter (f : TemplateFunction σ) (name : String) : InPlace σ Unit :=
  modifyThe (Registry σ) fun r => { r with index := r.index.insert name f }

/-- Looks up every name, enters every name, and puts the function behind the others. -/
def registering (f : TemplateFunction σ) : InPlace σ Unit := do
  forM f.descriptor.names refuseTaken
  forM f.descriptor.names (enter f)
  modifyThe (Registry σ) fun r => { r with functions := r.functions ++ [f] }

/-! ## Registries of functions -/

/-- Registers functions one after the other. -/
def registerAll (r : Registry σ) (functions : List (TemplateFunction σ)) :
    Except Failure (Registry σ) :=
  functions.foldlM register r

def ofList (functions : List (TemplateFunction σ)) : Except Failure (Registry σ) :=
  registerAll {} functions

def describe (r : Registry σ) : List Descriptor :=
  r.functions.map TemplateFunction.descriptor

def execute (r : Registry σ) (name : String) (arguments : Arguments) (context : Context) :
    Pass Note σ (Option String) := do
  let f ← Pass.ofExcept (r.get name)
  f.run arguments context

/-- An argument of a function that is not there stays as it is. -/
def transform (r : Registry σ) (name argument text : String) (context : Context) :
    Pass Note σ String :=
  match r.find? name with
  | some f => f.transform argument text context
  | none => pure text

def callback (r : Registry σ) : Callback σ :=
  ⟨r.execute, r.transform⟩

end Registry

end RequestTemplate
