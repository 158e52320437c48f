import Typeahead.Text.Basic

/-!
# JSON for people

A JSON value is printed with two blanks of indentation for each level and one item to a line. Only
what has to be escaped is escaped.
-/

namespace Typeahead

/-- A JSON value; the fields of an object are printed in their order. -/
inductive Json where
  | null
  | boolean (b : Bool)
  | number (n : Nat)
  | string (t : Text)
  | array (items : List Json)
  | object (fields : List (Text × Json))

namespace Json

/-- One character of a string. -/
def escapeChar (c : Char) : Text :=
  if c = '"' then ['\\', '"']
  else if c = '\\' then ['\\', '\\']
  else if c = '\x08' then ['\\', 'b']
  else if c = '\x0c' then ['\\', 'f']
  else if c = '\n' then ['\\', 'n']
  else if c = '\r' then ['\\', 'r']
  else if c = '\t' then ['\\', 't']
  else if c.toNat < 0x20 then
    let digits := Nat.toDigits 16 c.toNat
    ['\\', 'u'] ++ List.replicate (4 - digits.length) '0' ++ digits
  else [c]

/-- A string in quotes. -/
def quote (t : Text) : Text := ['"'] ++ t.flatMap escapeChar ++ ['"']

/-- A line end and the indentation of a level. -/
def newLine (level : Nat) : Text := '\n' :: List.replicate (2 * level) ' '

mutual

/-- A value whose first line starts at this level. -/
def printAt (level : Nat) : Json → Text
  | null => "null".toList
  | boolean true => "true".toList
  | boolean false => "false".toList
  | number n => (toString n).toList
  | string t => quote t
  | array [] => "[]".toList
  | array (item :: items) =>
    ['['] ++ newLine (level + 1) ++ printAt (level + 1) item ++ printItems (level + 1) items ++
      newLine level ++ [']']
  | object [] => ['\x7b', '\x7d']
  | object ((name, value) :: fields) =>
    ['\x7b'] ++ newLine (level + 1) ++ quote name ++ [':', ' '] ++ printAt (level + 1) value ++
      printFields (level + 1) fields ++ newLine level ++ ['\x7d']

/-- The items after the first one. -/
def printItems (level : Nat) : List Json → Text
  | [] => []
  | item :: items => [','] ++ newLine level ++ printAt level item ++ printItems level items

/-- The fields after the first one. -/
def printFields (level : Nat) : List (Text × Json) → Text
  | [] => []
  | (name, value) :: fields =>
    [','] ++ newLine level ++ quote name ++ [':', ' '] ++ printAt level value ++
      printFields level fields

end

/-- A value over several lines. -/
def print (j : Json) : Text := j.printAt 0

end Json

end Typeahead
