import Typeahead.Toml.Value

/-!
# Putting a document together

Each line of a document adds to one table: a header opens a table, a repeated header adds one to a
list of tables, and an assignment binds a key. What a key or header may not do is refused: bind a
key twice, open a table twice, or reach into a value, into a table between braces or, by a dotted
key, into a table with a header.
-/

namespace Typeahead.Toml

/-- The entries with a change made inside the table under `key`. A header reaches through every kind
of table but those between braces, and into the last of a list of tables; a key without an entry
gets a table of its own. -/
def Entries.within (key : Text) (change : Entries → Option Entries) (es : Entries) :
    Option Entries :=
  match es.lookup key with
  | none => (change []).map fun sub => es ++ [(key, .table .implied sub)]
  | some (.table .inline _) => none
  | some (.table origin sub) =>
    (change sub).map fun sub' => putEntry key (.table origin sub') es
  | some (.tables elements) =>
    match elements.getLast? with
    | none => none
    | some last =>
      (change last).map fun last' => putEntry key (.tables (elements.dropLast ++ [last'])) es
  | some _ => none

/-- Opens the table of a header. -/
def Entries.openTable : KeyPath → Entries → Option Entries
  | [], _ => none
  | [key], es =>
    match es.lookup key with
    | none => some (es ++ [(key, .table .header [])])
    | some (.table .implied sub) => some (putEntry key (.table .header sub) es)
    | some _ => none
  | key :: rest, es => es.within key (openTable rest)

/-- Adds a table to the list of a repeated header. -/
def Entries.addTable : KeyPath → Entries → Option Entries
  | [], _ => none
  | [key], es =>
    match es.lookup key with
    | none => some (es ++ [(key, .tables [[]])])
    | some (.tables elements) => some (putEntry key (.tables (elements ++ [[]])) es)
    | some _ => none
  | key :: rest, es => es.within key (addTable rest)

/-- Binds a key. The tables that a dotted key passes through must not have a header, and the last of
them has to come from dotted keys as well. -/
def Entries.assign (value : Value) : KeyPath → Entries → Option Entries
  | [], _ => none
  | [key], es => if (es.lookup key).isSome then none else some (es ++ [(key, value)])
  | key :: next :: rest, es =>
    match es.lookup key with
    | none => (assign value (next :: rest) []).map fun sub => es ++ [(key, .table .dotted sub)]
    | some (.table .dotted sub) =>
      (assign value (next :: rest) sub).map fun sub' => putEntry key (.table .dotted sub') es
    | some (.table .implied sub) =>
      if rest.isEmpty then none
      else (assign value (next :: rest) sub).map fun sub' =>
        putEntry key (.table .implied sub') es
    | some _ => none

/-- Makes a change in the table of a header that has been opened. -/
def Entries.inside : KeyPath → (Entries → Option Entries) → Entries → Option Entries
  | [], change, es => change es
  | key :: rest, change, es => es.within key (inside rest change)

/-- The table between braces with these assignments. -/
def Entries.ofPairs (pairs : List (KeyPath × Value)) : Option Entries :=
  pairs.foldlM (fun es p => Entries.assign p.2 p.1 es) []

/-- A line of a document. -/
inductive Statement where
  /-- Opens a table. -/
  | header (path : KeyPath)
  /-- Adds a table to a list of tables. -/
  | repeatedHeader (path : KeyPath)
  /-- Binds a key in the table opened last. -/
  | assignment (path : KeyPath) (value : Value)

/-- The document so far and the header of the table opened last. -/
structure Document where
  root : Entries := []
  current : KeyPath := []

/-- The document with one more line. -/
def Document.add (d : Document) : Statement → Option Document
  | .header path => (d.root.openTable path).map (⟨·, path⟩)
  | .repeatedHeader path => (d.root.addTable path).map (⟨·, path⟩)
  | .assignment path value =>
    (d.root.inside d.current (Entries.assign value path)).map (⟨·, d.current⟩)

/-- The root table of a document with these lines. -/
def Document.ofStatements (statements : List Statement) : Option Entries :=
  (statements.foldlM Document.add {}).map Document.root

end Typeahead.Toml
