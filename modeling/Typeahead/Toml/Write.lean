import Typeahead.Toml.Quote

/-!
# Writing TOML

A document is written as tables with an empty line between neighbours, each a header and a line for
each key. A list of two or more items takes a line for each of them.
-/

namespace Typeahead.Toml

/-- The values that are written. -/
inductive Field where
  | text (t : Text)
  | boolean (b : Bool)
  | texts (items : List Text)

/-- A table to be written. -/
structure Block where
  header : KeyPath
  fields : List (Text × Field)

/-- A value. -/
def Field.write : Field → Text
  | text t => writeString t
  | boolean true => "true".toList
  | boolean false => "false".toList
  | texts [] => "[]".toList
  | texts [t] => ['['] ++ writeString t ++ [']']
  | texts items =>
    "[\n".toList ++ items.flatMap (fun t => "    ".toList ++ writeString t ++ ",\n".toList) ++ [']']

/-- A table: its header and its lines. -/
def Block.write (b : Block) : Text :=
  ['['] ++ Text.join ['.'] (b.header.map writeKey) ++ "]\n".toList ++
    b.fields.flatMap fun f => writeKey f.1 ++ " = ".toList ++ f.2.write ++ ['\n']

/-- Tables with an empty line between neighbours. -/
def writeBlocks (blocks : List Block) : Text := Text.join ['\n'] (blocks.map Block.write)

end Typeahead.Toml
