import RequestTemplate.Schema.Labels

/-!
# Descriptors

What a function tells about itself: its name, its aliases, and the arguments that
a form for it asks for.
-/

namespace RequestTemplate
open Schema (Lax Reader Naming required withDefault model listOf ofOptionalText write)
open Schema.Lax (text optionalText flag)

variable [Lax]

structure FunctionArgument where
  type : String := "text"
  name : String
  label : Option String := none
  description : Option String := none
  placeholder : Option String := none
  defaultValue : Option String := none
  isOptional : Bool := false
  multiLine : Bool := false
  password : Bool := false
  deriving DecidableEq, Inhabited

structure Descriptor where
  name : String
  description : Option String := none
  aliases : List String := []
  arguments : List FunctionArgument := []
  deriving DecidableEq, Inhabited

/-- Every name that the function is called by. -/
def Descriptor.names (d : Descriptor) : List String :=
  d.name :: d.aliases

def FunctionArgument.read : Reader FunctionArgument :=
  model fun m =>
    FunctionArgument.mk <$> withDefault m .type text "text"
      <*> required m .name text
      <*> withDefault m .label optionalText none
      <*> withDefault m .description optionalText none
      <*> withDefault m .placeholder optionalText none
      <*> withDefault m .defaultValue optionalText none
      <*> withDefault m .optional flag false
      <*> withDefault m .multiLine flag false
      <*> withDefault m .password flag false

def FunctionArgument.write (a : FunctionArgument) : Document :=
  Schema.write .snake
    [(.type, .text a.type), (.name, .text a.name), (.label, ofOptionalText a.label),
      (.description, ofOptionalText a.description), (.placeholder, ofOptionalText a.placeholder),
      (.defaultValue, ofOptionalText a.defaultValue), (.optional, .bool a.isOptional),
      (.multiLine, .bool a.multiLine), (.password, .bool a.password)]

def Descriptor.read : Reader Descriptor :=
  model fun m =>
    Descriptor.mk <$> required m .name text
      <*> withDefault m .description optionalText none
      <*> withDefault m .aliases (listOf text) []
      <*> withDefault m .args (listOf FunctionArgument.read) []

def Descriptor.write (d : Descriptor) : Document :=
  Schema.write .snake
    [(.name, .text d.name), (.description, ofOptionalText d.description),
      (.aliases, .list (d.aliases.map .text)),
      (.args, .list (d.arguments.map FunctionArgument.write))]

def FunctionArgument.validate : Document → Except Failure FunctionArgument :=
  Schema.validate "FunctionArg" FunctionArgument.read

def Descriptor.validate : Document → Except Failure Descriptor :=
  Schema.validate "FunctionDescriptor" Descriptor.read

end RequestTemplate
