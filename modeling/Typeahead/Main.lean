import Typeahead.Command.Run

/-!
# The command-line program

Reads the words of the command line and the settings file, carries the command out, and prints what
it has to say.
-/

namespace Typeahead

/-- What is found at a path. -/
def Found.atPath (path : Text) : IO Found := do
  try
    return .contents (← IO.FS.readFile (String.ofList path)).toList
  catch
    | .noFileOrDirectory .. => return .missing
    | _ => return .unreadable

/-- Prints what a run has to say; an error is printed too, and its exit code is one. -/
def RunResult.print (r : RunResult) : IO UInt32 := do
  IO.print (String.ofList r.stdout)
  IO.eprint (String.ofList r.stderr)
  match r.result with
  | .ok code => return code.toUInt32
  | .error e =>
    IO.eprintln s!"Error: {e.message}"
    return 1

/-- Carries out a command line that has been understood. -/
def Invocation.execute (inv : Invocation) : IO UInt32 := do
  let home := ((← IO.getEnv "HOME").getD ".").toList
  (inv.run home (← Found.atPath (inv.settingsPath home))).print

end Typeahead

/-- Carries out the command line. -/
def main (args : List String) : IO UInt32 := do
  match Typeahead.Invocation.ofArguments (args.map String.toList) with
  | .ok inv => inv.execute
  | .error .displayHelp =>
    IO.print (String.ofList Typeahead.usage)
    return 0
  | .error .displayVersion =>
    IO.println "scql 0.1.0"
    return 0
  | .error _ =>
    IO.eprint (String.ofList Typeahead.usage)
    return 2
