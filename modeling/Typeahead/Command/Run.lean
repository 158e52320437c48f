import Typeahead.Command.Arguments
import Typeahead.Command.Completion
import Typeahead.Settings.File

/-!
# Carrying out commands

A command line is carried out on what was found at the path of the settings file. Settings with a
fault are replaced by the defaults after a warning; what the command line says goes over what the
file says.
-/

namespace Typeahead

/-- What a run prints and how it ends: with an exit code, or with an error. -/
structure RunResult where
  stdout : Text := []
  stderr : Text := []
  result : Except Error Nat

namespace Invocation

/-- The path of the settings file. -/
def settingsPath (inv : Invocation) (home : Text) : Text :=
  inv.configPath.getD (Settings.usualPath home)

/-- The settings with what the command line says. -/
def override (inv : Invocation) (s : Settings) : Settings :=
  { s with
    guesser := { s.guesser with
      root := inv.root.or s.guesser.root
      qualified := inv.qualified || s.guesser.qualified }
    logging := { s.logging with
      level := if inv.veryVerbose then .trace else if inv.verbose then .debug
        else s.logging.level }
    format := inv.format.getD s.format }

/-- The warning about settings with a fault. -/
def warning (e : Error) : Text :=
  "Warning: Configuration validation failed: ".toList ++ e.message.toList ++
    "\nUsing default configuration instead.\n".toList

/-- The settings a command works with, and the warning if those of the file have a fault. -/
def settings (inv : Invocation) (home : Text) (found : Found) :
    Except Error (Settings × Text) :=
  match Settings.load (inv.settingsPath home) inv.configPath.isSome found with
  | .error e => .error e
  | .ok s =>
    match s.check with
    | .ok () => .ok (inv.override s, [])
    | .error e => .ok (inv.override {}, warning e)

end Invocation

namespace Settings

/-- A session with these settings. -/
def session (s : Settings) : Except Error Session :=
  match s.registry with
  | .error e => .error (.schema e)
  | .ok registry =>
    match s.options with
    | .error e => .error e
    | .ok options =>
      match Session.new { schema := some registry.schema, options := options } s.guesser.root with
      | .error e => .error (.grammar e)
      | .ok session => .ok session

end Settings

namespace Session

/-- The session after a call, if the call succeeds. -/
def next (o : Outcome) : Except Error Session :=
  match o.result with
  | .ok _ => .ok o.session
  | .error e => .error (.guess e)

/-- Types a text, one character at a time. -/
def typeAll (s : Session) : Text → Except Error Session
  | [] => .ok s
  | c :: rest =>
    match next (s.type c) with
    | .ok s => s.typeAll rest
    | .error e => .error e

/-- Deletes a number of characters; with nothing left to delete, nothing happens. -/
def backspaces (s : Session) : Nat → Except Error Session
  | 0 => .ok s
  | n + 1 =>
    if s.draft.text = [] ∧ s.draft.tokens = [] then .ok s
    else
      match next s.backspace with
      | .ok s => s.backspaces n
      | .error e => .error e

/-- Types a text into a session, deletes characters, and commits what is left if `force` is set. -/
def replay (s : Session) (t : Text) (force keystrokes : Bool) (backspaces : Nat) :
    Except Error Session := do
  let s ← if keystrokes then s.typeAll t else next (s.setText t)
  let s ← s.backspaces backspaces
  if force then next s.commit else .ok s

end Session

namespace Command

/-- The verdict on a text. -/
def verdict (t : Text) : Verdict :=
  Tree.ofTokens .standard (Token.scan .standard t)

/-- A line to be printed. -/
def printed (t : Text) : Text := t ++ ['\n']

/-- Lines to be printed. -/
def printedLines (ts : List Text) : Text := ts.flatMap printed

/-- What `config --validate` prints about a settings file. -/
def checkReport (path : Text) (found : Found) : Text :=
  let outcome := match found with
    | .missing => "Configuration file does not exist".toList
    | found =>
      match Settings.load path true found with
      | .error e => "Failed to load configuration: ".toList ++ e.message.toList
      | .ok s =>
        match s.check with
        | .ok () => "Configuration is valid".toList
        | .error e => "Configuration validation failed: ".toList ++ e.message.toList
  printedLines ["Validating configuration file: ".toList ++ path, outcome]

/-- What `config --show` prints. -/
def showReport (path : Text) (s : Settings) : Text :=
  printedLines ["Configuration file: ".toList ++ path, [], "=== Effective Configuration ===".toList,
    [], s.toToml]

/-- Carries out a command: what it prints, and the exit code. -/
def run (path : Text) (found : Found) (s : Settings) : Command → Except Error (Text × Nat)
  | guess t force keystrokes backspaces => do
    let session ← s.session
    let session ← session.replay t force keystrokes backspaces
    .ok (printed (Report.snapshot s.format session.snapshot), 0)
  | tokenize t => .ok (printed (Report.tokens s.format (Token.scan .standard t)), 0)
  | validate t =>
    .ok (printed (Report.verdict s.format (verdict t)), if (verdict t).isOk then 0 else 1)
  | config showAll checkFile listTypes =>
    if listTypes then .ok (printedLines s.schema.keys, 0)
    else
      .ok ((if checkFile then checkReport path found else []) ++
        (if showAll then showReport path s else []), 0)
  | completion shell => do
    let shell ← Shell.parse shell
    .ok (shell.script, 0)

end Command

/-- How the program is used. -/
def usage : Text :=
  (String.intercalate "\n" [
    "Autocompletion for SCQL record queries",
    "",
    "Usage: scql [OPTIONS] [COMMAND]",
    "",
    "Commands:",
    "  guess TEXT [--force] [--keystrokes] [--backspace N]",
    "  tokenize TEXT",
    "  validate TEXT",
    "  config [--show] [--validate] [--list-types]",
    "  completion SHELL",
    "",
    "Options:",
    "  -c, --config FILE",
    "      --root-type TYPE",
    "      --qualified",
    "      --format FORMAT",
    "  -v, --verbose",
    "      --vv",
    "  -h, --help",
    "  -V, --version",
    ""]).toList

/-- Carries out a command line. -/
def Invocation.run (inv : Invocation) (home : Text) (found : Found) : RunResult :=
  match inv.settings home found with
  | .error e => { result := .error e }
  | .ok (s, warning) =>
    match inv.command with
    | none => { stdout := usage, stderr := warning, result := .ok 0 }
    | some command =>
      match command.run (inv.settingsPath home) found s with
      | .ok (stdout, code) => { stdout := stdout, stderr := warning, result := .ok code }
      | .error e => { stderr := warning, result := .error e }

end Typeahead
