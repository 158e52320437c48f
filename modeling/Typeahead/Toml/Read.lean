import Typeahead.Toml.Atom
import Typeahead.Toml.Quote
import Typeahead.Toml.Table

/-!
# Reading TOML

`Toml.parse` reads a document: lines of headers and assignments, which are then put together. Lists
between brackets and tables between braces may span lines and end with a comma.
-/

namespace Typeahead.Toml

/-- One name of a key. -/
def readKey : Reader Text
  | '"' :: rest => readBasic rest
  | '\'' :: rest => readLiteral rest
  | t =>
    match t.takeWhile isBareKeyChar with
    | [] => none
    | key => some (key, t.dropWhile isBareKeyChar)

/-- The names of a key with dots between them, and the text after the blanks behind it. -/
def readKeyPath (t : Text) : Option (KeyPath × Text) :=
  match readKey (skipSpaces t) with
  | none => none
  | some (key, rest) =>
    match skipSpaces rest with
    | '.' :: rest' =>
      if rest'.length < t.length then
        (readKeyPath rest').map fun (path, after) => (key :: path, after)
      else none
    | rest' => some ([key], rest')
termination_by t.length

/-- Items with commas between them, up to the closing character. -/
def readItems {α : Type} (item : Reader α) (close : Char) (t : Text) : Option (List α × Text) :=
  match skipFiller false t with
  | none | some [] => none
  | some (c :: rest) =>
    if c = close then some ([], rest)
    else
      match item (c :: rest) with
      | none => none
      | some (first, rest) =>
        match skipFiller false rest with
        | none | some [] => none
        | some (d :: rest) =>
          if d = close then some ([first], rest)
          else if d = ',' ∧ rest.length < t.length then
            (readItems item close rest).map fun (others, after) => (first :: others, after)
          else none
termination_by t.length

/-- A key, an equals sign and a value. -/
def readPair (value : Reader Value) : Reader (KeyPath × Value) := fun t =>
  match readKeyPath t with
  | some (path, '=' :: rest) =>
    (value (skipSpaces rest)).map fun (v, after) => ((path, v), after)
  | _ => none

/-- A string or a value without quotes. -/
def readScalar : Reader Value := fun t =>
  match t with
  | '"' :: _ | '\'' :: _ => (readString? t).map fun (s, rest) => (.text s, rest)
  | _ => readAtom t

/-- A value with lists and tables nested at most `depth` deep. -/
def readValue : (depth : Nat) → Reader Value
  | 0, t => readScalar t
  | depth + 1, t =>
    match t with
    | '[' :: rest =>
      (readItems (readValue depth) ']' rest).map fun (items, after) => (.array items, after)
    | '\x7b' :: rest =>
      match readItems (readPair (readValue depth)) '\x7d' rest with
      | some (pairs, after) => (Entries.ofPairs pairs).map (.table .inline ·, after)
      | none => none
    | _ => readScalar t

/-- How deep lists and tables may be nested in a value. -/
def nestingLimit : Nat := 80

/-- A line of a document up to its end. -/
def readStatement : Reader Statement
  | '[' :: '[' :: rest =>
    match readKeyPath rest with
    | some (path, ']' :: ']' :: after) => some (.repeatedHeader path, after)
    | _ => none
  | '[' :: rest =>
    match readKeyPath rest with
    | some (path, ']' :: after) => some (.header path, after)
    | _ => none
  | t =>
    (readPair (readValue nestingLimit) t).map fun ((path, value), after) =>
      (.assignment path value, after)

/-- The lines of a document. -/
def readStatements (t : Text) : Option (List Statement) :=
  match skipFiller false t with
  | none => none
  | some [] => some []
  | some (c :: rest) =>
    match readStatement (c :: rest) with
    | none => none
    | some (statement, after) =>
      match skipLineEnd false after with
      | none => none
      | some next =>
        if next.length < t.length then (readStatements next).map (statement :: ·) else none
termination_by t.length

/-- The root table of a document. A byte order mark in front is skipped. -/
def parse (t : Text) : Option Entries :=
  let body := match t with
    | '\ufeff' :: rest => rest
    | _ => t
  (readStatements body).bind Document.ofStatements

end Typeahead.Toml
