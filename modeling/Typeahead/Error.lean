import Typeahead.Query.Error
import Typeahead.Query.Position
import Typeahead.Schema.Attribute

/-!
# Errors

Everything that can go wrong, by cause. The message of an error names the part of the library it
comes from and goes on with the message of the cause.
-/

namespace Typeahead

/-- What is wrong with the settings. -/
inductive SettingsError where
  | fileNotFound (path : Text)
  | invalidFormat (reason : Text)
  | invalidValue (field value : Text)
  deriving DecidableEq

/-- The wording of a fault in the settings. -/
def SettingsError.message : SettingsError → String
  | fileNotFound path => s!"Config file not found: {String.ofList path}"
  | invalidFormat reason => s!"Invalid config format: {String.ofList reason}"
  | invalidValue field value =>
    s!"Invalid value '{String.ofList value}' for field '{String.ofList field}'"

/-- An error by its cause. -/
inductive Error where
  | guess (e : GuessError)
  | query (e : QueryError)
  | grammar (e : GrammarError)
  | schema (e : SchemaError)
  | settings (e : SettingsError)
  /-- A file could not be read or written. -/
  | file (reason : Text)
  | other (reason : Text)
  deriving DecidableEq

namespace Error

/-- The message of the cause alone. -/
def cause : Error → Option String
  | guess e => some e.message
  | query e => some e.message
  | grammar e => some e.message
  | schema e => some e.message
  | settings e => some e.message
  | file reason => some (String.ofList reason)
  | other _ => none

/-- The part of the library an error comes from. -/
def area : Error → String
  | guess _ => "Guess error: "
  | query _ => "Invalid query: "
  | grammar _ => "Grammar error: "
  | schema _ => "Schema error: "
  | settings _ => "Configuration error: "
  | file _ => "I/O error: "
  | other _ => ""

/-- The whole message. -/
def message (e : Error) : String :=
  match e with
  | other reason => String.ofList reason
  | _ => e.area ++ e.cause.getD ""

end Error

end Typeahead
