import RequestTemplate.Document.Yaml
import RequestTemplate.Settings

/-!
# Files

What is read from files: settings, chains of environments, requests and text.
A directory of files is a table from paths to what is found there. Steps of a
path are taken one after the other; only the last may lead to something that is
no directory.
-/

namespace RequestTemplate

/-- What is found at a path: a directory, or a file. Of a file that holds YAML, the document may
    be given in the place of the text. -/
inductive FileEntry where
  | document (content : Document)
  | text (content : String)
  | directory
  deriving Inhabited

abbrev Files := List (String × FileEntry)

namespace Files

/-! ## Paths -/

/-- The root at the head of a path. Two slashes are a root of their own. -/
def root : List Char → String
  | '/' :: '/' :: '/' :: _ => "/"
  | '/' :: '/' :: _ => "//"
  | '/' :: _ => "/"
  | _ => ""

/-- The steps of a path, without those that stay in place. -/
def steps (path : String) : List String :=
  (path.splitOn "/").filter fun step => step != "" && step != "."

/-- A path without empty steps and steps that stay in place. -/
def normalize (path : String) : String :=
  let normal := root path.toList ++ String.intercalate "/" (steps path)
  if normal = "" then "." else normal

/-- What a path leads to. -/
inductive Lookup where
  | found (entry : FileEntry)
  | missing
  /-- A step is taken from something that is no directory. -/
  | behindFile
  | nameTooLong
  deriving Inhabited

/-- How many bytes a step may have. -/
def longestName : Nat := 255

/-- How many bytes a path may have. -/
def longestPath : Nat := 4095

/-- What stands at a place. A place that others lie below is a directory. -/
def entry? (files : Files) (place : List String) : Option FileEntry :=
  let path := String.intercalate "/" place
  if place = [] then some .directory
  else
    match files.lookup path with
    | some entry => some entry
    | none =>
      if files.any fun file => file.1.startsWith (path ++ "/") then some .directory else none

/-- What steps from a place lead to. Above the directory of the files only
    directories are known. -/
def walk (files : Files) (place : List String) : List String → Lookup
  | [] =>
    match files.entry? place with
    | some entry => .found entry
    | none => .missing
  | step :: rest =>
    match files.entry? place with
    | none => .missing
    | some .directory =>
      if longestName < step.utf8ByteSize then .nameTooLong
      else if step = ".." then
        if place = [] then if rest.all (· == "..") then .found .directory else .missing
        else walk files place.dropLast rest
      else walk files (place ++ [step]) rest
    | some _ => .behindFile

/-- What is found at a normal path. -/
def find (files : Files) (path : String) : Lookup :=
  if longestPath < path.utf8ByteSize then .nameTooLong
  else
    match files.lookup path with
    | some entry => .found entry
    | none =>
      if root path.toList = "" then walk files [] (steps path)
      else if steps path = [] then .found .directory
      else .missing

/-! ## Contents -/

variable [Yaml] [Schema.Lax]

/-- Each way to end a line, as a line feed. -/
def unifyLines : List Char → List Char
  | '\r' :: '\n' :: rest => '\n' :: unifyLines rest
  | '\r' :: rest => '\n' :: unifyLines rest
  | c :: rest => c :: unifyLines rest
  | [] => []

/-- The text of a file. -/
def text (files : Files) (path : String) : Except Failure String :=
  match files.find path with
  | .missing => .error (.cannotOpen path)
  | .behindFile => .error (.notDirectory path)
  | .nameTooLong => .error (.nameTooLong path)
  | .found .directory => .error (.isDirectory path)
  | .found (.document d) => .ok (d.print .block ++ "\n")
  | .found (.text content) => .ok (String.ofList (unifyLines content.toList))

/-- The document that a file holds, as the loader has it. -/
def document (files : Files) (path : String) : Except Failure Document :=
  match files.find path with
  | .missing | .behindFile => .error (.fileNotFound path)
  | .nameTooLong => .error (.nameTooLong path)
  | .found .directory => .error (.isDirectory path)
  | .found (.document d) => .ok d
  | .found (.text content) => Yaml.load (String.ofList (unifyLines content.toList))

/-- The settings in a file, or the default settings if there is none. An empty
    document stands for no members. -/
def settings (files : Files) (path : String) : Except Failure Settings :=
  match files.find path with
  | .missing | .behindFile => .ok {}
  | .found _ | .nameTooLong => do
    let d ← files.document path
    Settings.validate (if d.isEmpty then .mapping [] else d)

/-- The environments of a document: a list of them, or a mapping that holds one. -/
def environmentItems? : Document → Option (List Document)
  | .list items => some items
  | .mapping entries =>
    match (Document.mapping entries).member? "environments" with
    | none => some []
    | some (.list items) => some items
    | some d => if d.isEmpty then some [] else none
  | _ => none

/-- The chain of environments in a file. -/
def environments (files : Files) (path : String) : Except Failure (List Environment) := do
  let d ← files.document path
  match environmentItems? d with
  | some items => items.mapM Environment.validate
  | none => .error (.expectedEnvironments path)

/-- The request in a file, of the kind of a name. -/
def request (files : Files) (path kind : String) : Except Failure Request :=
  match Request.Kind.ofName? kind with
  | none => .error (.unknownRequestKind kind)
  | some kind => do
    match ← files.document path with
    | .mapping entries => Request.validate kind (.mapping entries)
    | _ => .error (.expectedMapping path)

end Files

end RequestTemplate
