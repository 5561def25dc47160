import RequestTemplate.Command.Basic
import RequestTemplate.Command.Table
import RequestTemplate.Files
import RequestTemplate.Function.Default
import RequestTemplate.Markup.Layout
import RequestTemplate.Request.Render
import RequestTemplate.Template.Outline
import RequestTemplate.Text.Terminal

/-!
# Running commands

What a command prints, given the files, the input and the variables around it.
Nothing that is printed controls a terminal. A failure ends it with one line on
the error output; failures of templates, of values and of missing files are
expected, any other is marked as unexpected.
-/

namespace RequestTemplate

/-- What surrounds a command. -/
structure Surroundings where
  files : Files := []
  input : String := ""
  /-- The variables of the process. -/
  processVariables : List (String × String) := []
  keyring : Keyring Unit

structure Outcome where
  exit : Nat
  output : String := ""
  errors : String := ""
  deriving DecidableEq, Inhabited

namespace Command

variable [Yaml] [Schema.Lax]

def versionText : String := "reqtmpl 0.1.0"

def usage : String :=
  "Usage: reqtmpl [OPTIONS] COMMAND [ARGS]...\n\nCommands: render, render-request, parse, " ++
    "escape, unescape, format-xml, functions"

/-- The file that holds the settings where none is named. -/
def settingsPath (s : Surroundings) (named : Option String) : String :=
  Files.normalize (named.getD ((s.processVariables.lookup "REQTMPL_CONFIG").getD "reqtmpl.yaml"))

/-- The outcome of a pass that nothing else depends on. -/
def outcomeOf {α : Type} (p : Pass Event Unit α) : Except Failure α :=
  (p ()).outcome

/-- The settings, and the environments and the options that sources and settings ask for. -/
def load (s : Surroundings) (sources : Sources) : Except Failure (Settings × List Environment × RenderOptions) := do
  let settings ← s.files.settings (settingsPath s sources.settings)
  let chain ←
    match sources.environments with
    | some path => s.files.environments (Files.normalize path)
    | none => pure settings.environments
  return (settings, chain, if sources.silent then { onFailure := .silent } else settings.options)

/-- The table of the functions that are there without an encryptor. -/
def functionTable (s : Surroundings) : Except Failure String := do
  let registry ← Registry.standard none s.keyring
  let row (d : Descriptor) : List String :=
    [d.name, String.intercalate ", " d.aliases,
      String.intercalate ", " (d.arguments.map FunctionArgument.name), d.description.getD ""]
  return String.intercalate "\n"
    (Table.draw 80 "Template functions" ["Name", "Aliases", "Arguments", "Description"]
      (registry.describe.map row))

/-- The widest indentation that is laid out. -/
def widest : Nat := 0x40000000

/-- What a command prints. -/
def text (s : Surroundings) : Command → Except Failure String
  | .help => .ok usage
  | .version => .ok versionText
  | .render template sources => do
    let (settings, chain, options) ← load s sources
    let registry ← Registry.standard none s.keyring
    outcomeOf ((Renderer.ofChain chain registry.callback options settings.context).renderSource template)
  | .renderRequest file kind sources => do
    let (settings, chain, options) ← load s sources
    let request ← s.files.request (Files.normalize file) kind
    let registry ← Registry.standard none s.keyring
    let rendered ← outcomeOf (request.renderIn chain registry.callback options settings.context)
    return (rendered.write .camel).print .block
  | .parse template =>
    match Template.parse template with
    | .ok tokens => .ok ((Document.ofTemplate tokens).print .asciiBlock)
    | .error e => .error (.parse e)
  | .escape text => .ok (Delimiter.escape text)
  | .unescape text => .ok (Delimiter.unescape text)
  | .formatXml file indent named => do
    let settings ← s.files.settings (settingsPath s named)
    let path := Files.normalize file
    let source ←
      if path = "-" then pure (String.ofList (Files.unifyLines s.input.toList))
      else s.files.text path
    let width := (indent.getD settings.xmlIndent).toNat
    if widest < width then .error .tooWide
    else .ok (Markup.format source (Table.spaces width))
  | .functions => functionTable s

/-- The lines that report a failure. Where memory does not suffice there are none. -/
def report (failure : Failure) : String :=
  if failure.kind == .overflow then ""
  else if failure.kind.isTemplate || failure.kind.isValue || failure.kind == .fileNotFound then
    "Error: " ++ failure.message ++ "\n"
  else "Unexpected error: " ++ failure.message ++ "\n"

/-- Runs what words ask for. -/
def run (s : Surroundings) (words : List String) : Outcome :=
  match ofWords? words with
  | none => { exit := 2, errors := usage ++ "\n" }
  | some command =>
    match command.text s with
    | .ok printed => { exit := 0, output := Terminal.plain (printed ++ "\n") }
    | .error failure => { exit := 1, errors := Terminal.plain (report failure) }

/-- The files that a command may read. -/
def paths (command : Command) (s : Surroundings) : List String :=
  match command with
  | .render _ sources =>
    settingsPath s sources.settings :: sources.environments.toList.map Files.normalize
  | .renderRequest file _ sources =>
    settingsPath s sources.settings :: Files.normalize file ::
      sources.environments.toList.map Files.normalize
  | .formatXml file _ named => [settingsPath s named, Files.normalize file]
  | _ => []

end Command

end RequestTemplate
