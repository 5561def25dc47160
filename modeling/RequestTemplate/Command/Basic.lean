import RequestTemplate.Command.Options
import RequestTemplate.Text.Integer

/-!
# Commands

What the words of a command line ask for.
-/

namespace RequestTemplate

/-- Where a rendering command finds its settings and environments. -/
structure Command.Sources where
  settings : Option String := none
  environments : Option String := none
  silent : Bool := false
  deriving DecidableEq, Inhabited

inductive Command where
  | help
  | version
  | render (template : String) (sources : Command.Sources)
  | renderRequest (file kind : String) (sources : Command.Sources)
  | parse (template : String)
  | escape (text : String)
  | unescape (text : String)
  | formatXml (file : String) (indent : Option Int) (settings : Option String)
  | functions
  deriving DecidableEq, Inhabited

namespace Command

/-! ## The options of each command -/

def helpFlag : Flag := { long := "--help" }
def versionFlag : Flag := { long := "--version" }
def settingsFlag : Flag := { long := "--config", short := some 'c', takesValue := true }

def sourceFlags : List Flag :=
  [settingsFlag, { long := "--env", short := some 'e', takesValue := true },
    { long := "--silent" }, { long := "--verbose", short := some 'v' }]

def kindFlag : Flag := { long := "--kind", short := some 'k', takesValue := true }
def indentFlag : Flag := { long := "--indent", takesValue := true }

def sourcesOf (w : Words) : Sources :=
  ⟨w.value? "--config", w.value? "--env", w.has "--silent"⟩

/-! ## Commands from words -/

/-- A command that takes a single operand. -/
def withOperand? (w : Words) (command : String → Option Command) : Option Command :=
  match w.operands with
  | [operand] => command operand
  | _ => none

/-- The words behind the name of a command. Asking for help outweighs all but
    options that are not known. -/
def withWords? (flags : List Flag) (words : List String) (command : Words → Option Command) :
    Option Command :=
  match split? (helpFlag :: flags) true words with
  | none => none
  | some w => if w.has "--help" then some .help else command w

/-- The number of an option, if it is given; nothing if it is no number. -/
def indentOf? (w : Words) : Option (Option Int) :=
  match w.value? "--indent" with
  | none => some none
  | some word => (Text.integer word).toOption.map some

def ofName? (name : String) (words : List String) : Option Command :=
  match name with
  | "render" => withWords? sourceFlags words fun w =>
    withOperand? w fun template => some (.render template (sourcesOf w))
  | "render-request" => withWords? (kindFlag :: sourceFlags) words fun w =>
    withOperand? w fun file =>
      some (.renderRequest file ((w.value? "--kind").getD "http") (sourcesOf w))
  | "parse" => withWords? [] words fun w => withOperand? w fun template => some (.parse template)
  | "escape" => withWords? [] words fun w => withOperand? w fun text => some (.escape text)
  | "unescape" => withWords? [] words fun w => withOperand? w fun text => some (.unescape text)
  | "format-xml" => withWords? [indentFlag, settingsFlag] words fun w =>
    withOperand? w fun file =>
      (indentOf? w).map fun indent => .formatXml file indent (w.value? "--config")
  | "functions" => withWords? [] words fun w =>
    if w.operands = [] then some .functions else none
  | _ => none

/-- The command that words ask for; nothing if they are no use of the program. -/
def ofWords? (words : List String) : Option Command :=
  match split? [helpFlag, versionFlag] false words with
  | none => none
  | some w =>
    match w.options, w.operands with
    | ("--version", _) :: _, _ => some .version
    | _ :: _, _ => some .help
    | [], name :: rest => ofName? name rest
    | [], [] => none

end Command

end RequestTemplate
