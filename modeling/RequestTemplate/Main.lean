import RequestTemplate.Command.Run

/-!
# The program

Reads the files that a command needs, runs it, and prints what it leaves. The
system has no credential store that the program could ask, so every password is
missing.
-/

namespace RequestTemplate.Command

/-- What stands at a path; nothing if it cannot be read. -/
def fileEntry? (path : String) : IO (Option FileEntry) := do
  try
    return some (.text (← IO.FS.readFile path))
  catch
    | .inappropriateType .. => return some .directory
    | _ => return none

/-- The files at some paths that can be read. -/
def readFiles : List String → IO Files
  | [] => return []
  | path :: rest => do
    let entry ← fileEntry? path
    let others ← readFiles rest
    return (entry.map fun e => (path, e)).toList ++ others

/-- Everything a command may read of the process it runs in. -/
def surroundings (words : List String) : IO Surroundings := do
  let settings ← IO.getEnv "REQTMPL_CONFIG"
  let around : Surroundings := {
    processVariables := (settings.map fun path => ("REQTMPL_CONFIG", path)).toList
    keyring := fun _ _ => pure none }
  match ofWords? words with
  | none => return around
  | some command => do
    let paths := command.paths around
    let input ← if "-" ∈ paths then (← IO.getStdin).readToEnd else pure ""
    return { around with files := ← readFiles paths, input }

end RequestTemplate.Command

open RequestTemplate in
/-- Runs the command that the words ask for. -/
def main (words : List String) : IO UInt32 := do
  let outcome := Command.run (← Command.surroundings words) words
  (← IO.getStdout).putStr outcome.output
  (← IO.getStderr).putStr outcome.errors
  return outcome.exit.toUInt32
