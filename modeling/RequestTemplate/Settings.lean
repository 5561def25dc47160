import RequestTemplate.Render.Options
import RequestTemplate.Request.Schema

/-!
# Options, contexts and settings as data

The schemas of render options, of contexts and of the settings file, and what a
settings file says about a pass.
-/

namespace RequestTemplate
open Schema (Lax Reader withDefault model natural listOf ofOptionalText)
open Schema.Lax (optionalText choice)

variable [Lax]

def FailurePolicy.names : List (String × FailurePolicy) :=
  [("throw", .throw), ("silent", .silent)]

def FailurePolicy.name : FailurePolicy → String
  | .throw => "throw"
  | .silent => "silent"

def Purpose.names : List (String × Purpose) :=
  [("send", .send), ("preview", .preview)]

def Purpose.name : Purpose → String
  | .send => "send"
  | .preview => "preview"

def RenderOptions.read : Reader RenderOptions :=
  model fun m => RenderOptions.mk <$> withDefault m .onFailure (choice FailurePolicy.names) .throw

def RenderOptions.write (o : RenderOptions) : Document :=
  Schema.write .snake [(.onFailure, .text o.onFailure.name)]

def RenderOptions.validate : Document → Except Failure RenderOptions :=
  Schema.validate "RenderOptions" RenderOptions.read

def Context.read : Reader Context :=
  model fun m =>
    Context.mk <$> withDefault m .label optionalText none
      <*> withDefault m .ownWorkspaceId optionalText none
      <*> withDefault m .environmentId optionalText none
      <*> withDefault m .purpose (choice Purpose.names) .send

def Context.write (c : Context) : Document :=
  Schema.write .snake
    [(.label, ofOptionalText c.label), (.ownWorkspaceId, ofOptionalText c.workspaceId),
      (.environmentId, ofOptionalText c.environmentId), (.purpose, .text c.purpose.name)]

def Context.validate : Document → Except Failure Context :=
  Schema.validate "WindowContext" Context.read

structure Settings where
  onFailure : FailurePolicy := .throw
  xmlIndent : Nat := 2
  workspaceId : Option String := none
  /-- The chain of environments, the most specific one first. -/
  environments : List Environment := []
  deriving DecidableEq, Inhabited

namespace Settings

def read : Reader Settings :=
  model fun m =>
    Settings.mk <$> withDefault m .onFailure (choice FailurePolicy.names) .throw
      <*> withDefault m .xmlIndent natural 2
      <*> withDefault m .ownWorkspaceId optionalText none
      <*> withDefault m .environments (listOf Environment.read) []

def write (s : Settings) : Document :=
  Schema.write .snake
    [(.onFailure, .text s.onFailure.name), (.xmlIndent, .integer s.xmlIndent),
      (.ownWorkspaceId, ofOptionalText s.workspaceId),
      (.environments, .list (s.environments.map (Environment.write .camel)))]

def validate : Document → Except Failure Settings :=
  Schema.validate "ReqtmplConfig" read

def options (s : Settings) : RenderOptions :=
  { onFailure := s.onFailure }

def context (s : Settings) : Context :=
  { workspaceId := s.workspaceId }

end Settings

end RequestTemplate
