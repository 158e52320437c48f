import Typeahead.Report.Basic

/-!
# Command-line arguments

`Invocation.ofArguments` reads the words of a command line. There are two levels of options: before
the name of a command and after it. Options that concern every command may stand at either level,
and then the later one counts; at one level an option may be given once.

A word after an option that wants a value is kept as its value and looked at only when the next
option, a text or the end of the level is reached. So of two faults the one that shows first is
reported: an unknown word goes before the bad value in front of it.
-/

namespace Typeahead

/-- Why a command line is not carried out. -/
inductive ArgumentError where
  | unknownArgument
  | invalidSubcommand
  | missingArgument
  | invalidValue
  | valueValidation
  | conflict
  | tooManyValues
  /-- The user asks how the program is used. -/
  | displayHelp
  /-- The user asks for the version. -/
  | displayVersion
  deriving DecidableEq

/-- The options of the command line. -/
inductive Switch where
  | config | rootType | qualified | format | verbose | veryVerbose
  | help | version
  | force | keystrokes | backspace
  | show | validate | listTypes
  deriving DecidableEq

namespace Switch

/-- The long name. -/
def long : Switch → String
  | config => "config"
  | rootType => "root-type"
  | qualified => "qualified"
  | format => "format"
  | verbose => "verbose"
  | veryVerbose => "vv"
  | help => "help"
  | version => "version"
  | force => "force"
  | keystrokes => "keystrokes"
  | backspace => "backspace"
  | «show» => "show"
  | validate => "validate"
  | listTypes => "list-types"

/-- The one-letter name. -/
def short? : Switch → Option Char
  | config => some 'c'
  | verbose => some 'v'
  | help => some 'h'
  | version => some 'V'
  | _ => none

/-- Whether the option is followed by a value. -/
def takesValue : Switch → Bool
  | config | rootType | format | backspace => true
  | _ => false

end Switch

/-- The place of a word: before the name of a command, or after it. -/
inductive Level where
  | top | guess | tokenize | validate | config | completion
  deriving DecidableEq

namespace Level

/-- The commands by name. -/
def commands : List (String × Level) :=
  [("guess", guess), ("tokenize", tokenize), ("validate", validate), ("config", config),
    ("completion", completion)]

/-- The level after a command's name. -/
def ofName? (word : Text) : Option Level :=
  (commands.find? fun c => c.1.toList = word).map Prod.snd

/-- The options that concern every command. -/
def globalSwitches : List Switch :=
  [.config, .rootType, .qualified, .format, .verbose, .veryVerbose]

/-- The options of a level. -/
def switches : Level → List Switch
  | top => globalSwitches ++ [.help, .version]
  | guess => globalSwitches ++ [.help, .force, .keystrokes, .backspace]
  | config => globalSwitches ++ [.help, .show, .validate, .listTypes]
  | tokenize | validate | completion => globalSwitches ++ [.help]

/-- Whether the command wants a text. -/
def wantsText : Level → Bool
  | guess | tokenize | validate | completion => true
  | top | config => false

/-- The option with a long name. -/
def longSwitch? (level : Level) (name : Text) : Option Switch :=
  level.switches.find? fun s => s.long.toList = name

/-- The option with a one-letter name. -/
def shortSwitch? (level : Level) (c : Char) : Option Switch :=
  level.switches.find? fun s => s.short? = some c

end Level

/-- The form of report of this name. -/
def ReportFormat.ofName? (name : Text) : Option ReportFormat :=
  if name = "text".toList then some .text
  else if name = "json".toList then some .json
  else none

/-- A count of at most 64 bits: digits, perhaps after a plus sign. -/
def count? (t : Text) : Option Nat :=
  let digits := match t with
    | '+' :: rest => rest
    | _ => t
  if digits ≠ [] ∧ digits.all Char.isDigit then
    let n := digits.foldl (fun n c => 10 * n + (c.toNat - '0'.toNat)) 0
    if n < Nat.pow 2 64 then some n else none
  else none

/-- What has been read at a level. -/
structure LevelState where
  /-- The options given, with their values; an option without one has the empty text. -/
  given : List (Switch × Text) := []
  /-- An option that waits for its value, or for the value to be looked at. -/
  waiting : Option (Switch × Option Text) := none
  /-- The text of the command. -/
  text : Option Text := none
  /-- Every further word is a text. -/
  textOnly : Bool := false

namespace LevelState

/-- The fault of a value, if it has one. -/
def valueError? (switch : Switch) (value : Text) : Option ArgumentError :=
  match switch with
  | .config => if value = [] then some .invalidValue else none
  | .format => if (ReportFormat.ofName? value).isNone then some .invalidValue else none
  | .backspace => if (count? value).isNone then some .valueValidation else none
  | _ => none

/-- Records an option with its value. -/
def take (s : LevelState) (switch : Switch) (value : Text) : Except ArgumentError LevelState :=
  if (s.given.lookup switch).isSome then .error .conflict
  else
    match valueError? switch value with
    | some e => .error e
    | none => .ok { s with given := s.given ++ [(switch, value)] }

/-- Records the option that waits. -/
def resolve (s : LevelState) : Except ArgumentError LevelState :=
  match s.waiting with
  | none => .ok s
  | some (_, none) => .error .invalidValue
  | some (switch, some value) => { s with waiting := none }.take switch value

/-- An option without a value. -/
def flag (s : LevelState) (switch : Switch) : Except ArgumentError LevelState :=
  match s.resolve with
  | .error e => .error e
  | .ok s =>
    match switch with
    | .help => .error .displayHelp
    | .version => .error .displayVersion
    | switch => s.take switch []

/-- An option with its value, or before it. -/
def valued (s : LevelState) (switch : Switch) (value : Option Text) :
    Except ArgumentError LevelState :=
  match s.resolve with
  | .error e => .error e
  | .ok s =>
    match value with
    | some value => s.take switch value
    | none => .ok { s with waiting := some (switch, none) }

/-- A word of one-letter options. The letters after one that wants a value are its value. -/
def shorts (level : Level) (s : LevelState) : Text → Except ArgumentError LevelState
  | [] => .ok s
  | c :: rest =>
    match level.shortSwitch? c with
    | none => .error .unknownArgument
    | some switch =>
      if switch.takesValue then
        match rest with
        | [] => s.valued switch none
        | '=' :: value => s.valued switch (some value)
        | value => s.valued switch (some value)
      else
        match s.flag switch with
        | .ok s => s.shorts level rest
        | .error e => .error e

/-- A long option, with a value after an equals sign or without. -/
def longOption (level : Level) (s : LevelState) (word : Text) : Except ArgumentError LevelState :=
  let (name, value) := match word.span (· ≠ '=') with
    | (name, _ :: value) => (name, some value)
    | (name, []) => (name, none)
  match level.longSwitch? name with
  | none => .error .unknownArgument
  | some switch =>
    if switch.takesValue then s.valued switch value
    else if value.isSome then .error .tooManyValues
    else s.flag switch

/-- A word that is no option: the text of the command, if it still wants one. -/
def plain (level : Level) (s : LevelState) (word : Text) : Except ArgumentError LevelState :=
  if level.wantsText && s.text.isNone then
    match s.resolve with
    | .ok s => .ok { s with text := some word }
    | .error e => .error e
  else if level ≠ .top then .error .unknownArgument
  else if s.textOnly ∧ (word = "help".toList ∨ (Level.ofName? word).isSome) then
    .error .unknownArgument
  else .error .invalidSubcommand

/-- One word of a level. -/
def read (level : Level) (s : LevelState) (word : Text) : Except ArgumentError LevelState :=
  if s.textOnly then s.plain level word
  else
    match word with
    | ['-', '-'] => .ok { s with textOnly := true }
    | '-' :: '-' :: rest => s.longOption level rest
    | '-' :: c :: rest => s.shorts level (c :: rest)
    | word =>
      match s.waiting with
      | some (switch, none) => .ok { s with waiting := some (switch, some word) }
      | _ => s.plain level word

/-- The end of a level: nothing waits, and a text that is wanted is there. -/
def finish (level : Level) (s : LevelState) : Except ArgumentError LevelState :=
  match s.resolve with
  | .error e => .error e
  | .ok s => if level.wantsText && s.text.isNone then .error .missingArgument else .ok s

/-- The words after a command's name. -/
def readCommand (level : Level) (s : LevelState) :
    List Text → Except ArgumentError LevelState
  | [] => s.finish level
  | word :: rest =>
    match s.read level word with
    | .ok s => s.readCommand level rest
    | .error e => .error e

/-- The words after `help`: nothing, or the name of a command. -/
def helpOn : List Text → ArgumentError
  | [] => .displayHelp
  | [word] =>
    if word = "help".toList ∨ (Level.ofName? word).isSome then .displayHelp
    else .invalidSubcommand
  | _ => .invalidSubcommand

/-- Whether an option waits for a value, so that the next word is no command. -/
def awaitsValue (s : LevelState) : Bool := s.waiting.any (·.2.isNone)

/-- The words of a command line: what is given before the command, and the command with what is
given after it. -/
def readTop (s : LevelState) :
    List Text → Except ArgumentError (LevelState × Option (Level × LevelState))
  | [] =>
    match s.finish .top with
    | .ok s => .ok (s, none)
    | .error e => .error e
  | word :: rest =>
    if !s.textOnly && !s.awaitsValue && word = "help".toList then .error (helpOn rest)
    else
      match if s.textOnly || s.awaitsValue then none else Level.ofName? word with
      | some level =>
        match readCommand level {} rest with
        | .error e => .error e
        | .ok below =>
          match s.finish .top with
          | .ok s => .ok (s, some (level, below))
          | .error e => .error e
      | none =>
        match s.read .top word with
        | .ok s => s.readTop rest
        | .error e => .error e

end LevelState

/-- What is to be done. -/
inductive Command where
  /-- Follows the typing of a text. -/
  | guess (text : Text) (force keystrokes : Bool) (backspaces : Nat)
  /-- Shows the tokens of a text. -/
  | tokenize (text : Text)
  /-- Tells whether a query is complete. -/
  | validate (text : Text)
  /-- Shows or checks the settings. -/
  | config (showAll checkFile listTypes : Bool)
  /-- Prints a completion script. -/
  | completion (shell : Text)
  deriving DecidableEq

/-- A command line that has been understood. -/
structure Invocation where
  configPath : Option Text
  root : Option Text
  qualified : Bool
  format : Option ReportFormat
  verbose : Bool
  veryVerbose : Bool
  /-- Without a command the program explains itself. -/
  command : Option Command
  deriving DecidableEq

namespace Invocation

/-- The command of a level. -/
def commandOf (level : Level) (s : LevelState) : Option Command :=
  let has (switch : Switch) : Bool := (s.given.lookup switch).isSome
  let text := s.text.getD []
  match level with
  | .top => none
  | .guess =>
    some (.guess text (has .force) (has .keystrokes)
      (((s.given.lookup .backspace).bind count?).getD 0))
  | .tokenize => some (.tokenize text)
  | .validate => some (.validate text)
  | .config => some (.config (has .show) (has .validate) (has .listTypes))
  | .completion => some (.completion text)

/-- The command line that the words stand for. Of an option given at both levels the later one
counts. -/
def ofArguments (words : List Text) : Except ArgumentError Invocation :=
  match LevelState.readTop {} words with
  | .error e => .error e
  | .ok (top, command) =>
    let given := (command.map (·.2.given)).getD [] ++ top.given
    let has (switch : Switch) : Bool := (given.lookup switch).isSome
    .ok
      { configPath := given.lookup .config
        root := given.lookup .rootType
        qualified := has .qualified
        format := (given.lookup .format).bind ReportFormat.ofName?
        verbose := has .verbose
        veryVerbose := has .veryVerbose
        command := command.bind fun c => commandOf c.1 c.2 }

end Invocation

end Typeahead
