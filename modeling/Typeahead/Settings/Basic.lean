import Typeahead.Error
import Typeahead.Report.Basic
import Typeahead.Schema.Registry
import Typeahead.Session.Basic

/-!
# Settings

What a user configures: how guesses are made, what is logged, how reports look, and the record
types of the schema. `Settings.check` finds the first fault, and `Settings.registry` defines the
record types, parents before the types that extend them, whatever their order.
-/

namespace Typeahead

/-- How much is logged. -/
inductive LogLevel where
  | error | warn | info | debug | trace
  deriving DecidableEq

namespace LogLevel

/-- Every level, the quietest first. -/
def all : List LogLevel := [error, warn, info, debug, trace]

/-- The name of a level in a settings file. -/
def label : LogLevel → String
  | error => "error"
  | warn => "warn"
  | info => "info"
  | debug => "debug"
  | trace => "trace"

end LogLevel

/-- The name of a form of report in a settings file. -/
def ReportFormat.label : ReportFormat → String
  | text => "text"
  | json => "json"

/-- How guesses are made. -/
structure GuessSettings where
  /-- The record type from which attribute paths start. -/
  root : Option Text := none
  /-- Attributes are offered with the path that leads to them. -/
  qualified : Bool := false
  /-- The names of keywords that are never offered. -/
  excluded : List Text := ({} : Options).excluded.map TokenKind.name
  deriving DecidableEq

/-- What is logged. -/
structure LogSettings where
  level : LogLevel := .warn
  timestamps : Bool := true
  deriving DecidableEq

/-- Everything a user configures. -/
structure Settings where
  guesser : GuessSettings := {}
  logging : LogSettings := {}
  format : ReportFormat := .text
  /-- The record types as they are declared. -/
  schema : Definitions := .empty

namespace Settings

/-- The excluded keywords; the first name that is none is a fault. -/
def excludedKinds : List Text → Except Error (List TokenKind)
  | [] => .ok []
  | name :: rest =>
    match TokenKind.ofName? name with
    | none => .error (.settings (.invalidValue "guesser.excluded".toList name))
    | some kind =>
      match excludedKinds rest with
      | .ok kinds => .ok (kind :: kinds)
      | .error e => .error e

/-- How guesses are made, as a session wants it. -/
def options (s : Settings) : Except Error Options :=
  match excludedKinds s.guesser.excluded with
  | .ok kinds => .ok { qualified := s.guesser.qualified, excluded := kinds }
  | .error e => .error e

/-- Defines the types whose parents are known by then, and returns the others. -/
def register (r : Registry) : List (Text × RecordType) →
    Except SchemaError (Registry × List (Text × RecordType))
  | [] => .ok (r, [])
  | (name, type) :: rest =>
    match type.parent with
    | none => register (r.define name type.attributes) rest
    | some parent =>
      if r.contains parent then
        match r.extend parent name type.attributes with
        | .ok r' => register r' rest
        | .error e => .error e
      else
        match register r rest with
        | .ok (r', deferred) => .ok (r', (name, type) :: deferred)
        | .error e => .error e

/-- Why the first of the types that cannot be defined waits for its parent in vain. -/
def stuckError (declared : Definitions) (name : Text) (type : RecordType) : SchemaError :=
  let parent := type.parent.getD []
  if declared.contains parent then .inheritanceCycle name else .unknownParent name parent

/-- Defines types as long as one more can be defined. -/
def registerAll (declared : Definitions) (r : Registry) (pending : List (Text × RecordType)) :
    Except SchemaError Registry :=
  match register r pending with
  | .error e => .error e
  | .ok (r', []) => .ok r'
  | .ok (r', (name, type) :: rest) =>
    if rest.length + 1 < pending.length then registerAll declared r' ((name, type) :: rest)
    else .error (stuckError declared name type)
termination_by pending.length

/-- The registry of the declared record types. -/
def registry (s : Settings) : Except SchemaError Registry :=
  registerAll s.schema .empty s.schema.entries

/-- The first attribute that leads to an undeclared type. -/
def danglingAttribute? (declared : Definitions) (type : RecordType) : Option (Text × Text) :=
  type.attributes.entries.findSome? fun (name, attr) =>
    match attr.target? with
    | some target => if declared.contains target then none else some (name, target)
    | none => none

/-- The first field of a record type that names an undeclared type: the parent goes before the
attributes. -/
def danglingField? (declared : Definitions) (name : Text) (type : RecordType) : Option Error :=
  let invalid (field value : Text) : Error :=
    .settings (.invalidValue (Text.join ['.'] ["schema".toList, name, field]) value)
  match type.parent.filter fun parent => !declared.contains parent with
  | some parent => some (invalid "_extends".toList parent)
  | none => (danglingAttribute? declared type).map fun (attr, target) => invalid attr target

/-- The root type, if it is not declared. -/
def danglingRoot? (s : Settings) : Option Error :=
  (s.guesser.root.filter fun root => !s.schema.contains root).map fun root =>
    .settings (.invalidValue "guesser.root_type".toList root)

/-- The first fault of the settings: excluded names, the root type, parents and relations of each
record type in turn, and at last inheritance. -/
def check (s : Settings) : Except Error Unit :=
  match excludedKinds s.guesser.excluded with
  | .error e => .error e
  | .ok _ =>
    match s.danglingRoot? with
    | some e => .error e
    | none =>
      match s.schema.entries.findSome? fun (name, type) => danglingField? s.schema name type with
      | some e => .error e
      | none =>
        match s.registry with
        | .error e => .error (.schema e)
        | .ok _ => .ok ()

end Settings

end Typeahead
