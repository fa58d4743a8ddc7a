import DatabaseBroker.CommandLine

/-!
The program: prints the configuration that a settings file leads to. It answers no requests itself.
-/

namespace DatabaseBroker

/-- What a file holds, if it can be read as text. -/
def contentOf (path : String) : IO (Option String) := do
  try
    let text ← IO.FS.readFile path
    return some text
  catch _ => return none

end DatabaseBroker

open DatabaseBroker

/-- Reads the settings file that the arguments name, prints what follows and ends with its status. -/
def main (arguments : List String) : IO UInt32 := do
  match Invocation.parse? arguments with
  | none =>
    IO.eprint Outcome.usage
    return 2
  | some i =>
    let content ← match i.file with
      | some path => contentOf path
      | none => pure none
    let outcome := i.outcome content
    IO.print outcome.text
    match outcome.status? with
    | some status => return UInt32.ofNat status
    | none =>
      IO.eprintln "this program only prints configurations"
      return 1
