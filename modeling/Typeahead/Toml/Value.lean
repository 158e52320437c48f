import Typeahead.OrderedMap
import Typeahead.Text.Basic

/-!
# TOML values

The values of a TOML document. A table remembers how it came about, because that decides whether
later lines may add to it. Numbers and dates are kept as they are written.
-/

namespace Typeahead.Toml

/-- How a table came about. -/
inductive Origin where
  /-- Between braces. -/
  | inline
  /-- By a dotted key. -/
  | dotted
  /-- As the parent of a table with a header of its own. -/
  | implied
  /-- By its own header, or as the whole document. -/
  | header
  deriving DecidableEq

/-- A TOML value. -/
inductive Value where
  | text (t : Text)
  | boolean (b : Bool)
  | integer (written : Text)
  | float (written : Text)
  | dateTime (written : Text)
  | array (items : List Value)
  | table (origin : Origin) (entries : List (Text × Value))
  /-- The tables of a repeated header. -/
  | tables (elements : List (List (Text × Value)))

/-- The entries of a table in the order in which their keys are first mentioned. -/
abbrev Entries := List (Text × Value)

/-- The key of a line: the names between the dots. -/
abbrev KeyPath := List Text

/-- A reader takes its value off the front of a text, or refuses the text. -/
abbrev Reader (α : Type) := Text → Option (α × Text)

end Typeahead.Toml
