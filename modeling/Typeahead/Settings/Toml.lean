import Typeahead.Settings.Basic
import Typeahead.Toml.Read
import Typeahead.Toml.Write

/-!
# Settings as TOML

`Settings.ofToml?` reads settings from a TOML document and `Settings.toToml` writes them. What a
document leaves out has its default, and what it says beyond the settings is ignored. In the table
of a record type `_extends` names the parent and every other key an attribute: a scalar by the name
of its type, a relation by a table with one key.
-/

namespace Typeahead

namespace Settings

open Toml (Value Entries)

/-! ## Reading -/

/-- The key under which a date stands where a table is wanted. -/
def dateKey : Text := "$__toml_private_datetime".toList

/-- The entries of a table. A date counts as a table with one entry. -/
def entries? : Value → Option Entries
  | .table _ entries => some entries
  | .dateTime written => some [(dateKey, .text written)]
  | _ => none

/-- The items of a list. -/
def items? : Value → Option (List Value)
  | .array items => some items
  | .tables elements => some (elements.map (.table .header))
  | _ => none

/-- The entries of a section with these fields: a table, or a list of the fields in their order. -/
def section? (fields : List String) (v : Value) : Option Entries :=
  match items? v with
  | some items => some ((fields.map String.toList).zip items)
  | none => entries? v

/-- A text. -/
def text? : Value → Option Text
  | .text t => some t
  | _ => none

/-- A truth value. -/
def boolean? : Value → Option Bool
  | .boolean b => some b
  | _ => none

/-- A list of texts. -/
def texts? (v : Value) : Option (List Text) := (items? v).bind fun items => items.mapM text?

/-- One of several names: as a text, or as the only key of a table whose value is empty. -/
def choice? {α : Type} (choices : List α) (label : α → String) (v : Value) : Option α :=
  let named (t : Text) : Option α := choices.find? fun c => (label c).toList = t
  match v with
  | .text t => named t
  | .table _ [(t, .table _ [])] => named t
  | .table _ [(t, .array [])] => named t
  | _ => none

/-- The value of a key, read as `read?` says; a key that is absent has the default. -/
def fieldOr {α : Type} (es : Entries) (key : String) (default : α) (read? : Value → Option α) :
    Option α :=
  match es.lookup key.toList with
  | none => some default
  | some v => read? v

/-- An attribute. -/
def attribute? (v : Value) : Option Attribute :=
  match v with
  | .text type => some (.scalar type)
  | v =>
    match entries? v with
    | some [(key, .text target)] =>
      if key = "to_one".toList then some (.toOne target)
      else if key = "to_many".toList then some (.toMany target)
      else none
    | _ => none

/-- The key of a record type's parent. -/
def parentKey : Text := "_extends".toList

/-- A record type: its parent under `_extends`, and its attributes. -/
def recordType? (v : Value) : Option RecordType :=
  match entries? v with
  | none => none
  | some es =>
    match (es.lookup parentKey).mapM text?,
        (es.filter (·.1 ≠ parentKey)).mapM fun e => (attribute? e.2).map (e.1, ·) with
    | some parent, some attributes => some ⟨parent, .ofList attributes⟩
    | _, _ => none

/-- How guesses are made. -/
def guesser? (v : Value) : Option GuessSettings := do
  let es ← section? ["root_type", "qualified_attributes", "excluded"] v
  let default : GuessSettings := {}
  let root ← fieldOr es "root_type" default.root fun v => (text? v).map some
  let qualified ← fieldOr es "qualified_attributes" default.qualified boolean?
  let excluded ← fieldOr es "excluded" default.excluded texts?
  some ⟨root, qualified, excluded⟩

/-- What is logged. -/
def logging? (v : Value) : Option LogSettings := do
  let es ← section? ["level", "timestamps"] v
  let default : LogSettings := {}
  let level ← fieldOr es "level" default.level (choice? LogLevel.all LogLevel.label)
  let timestamps ← fieldOr es "timestamps" default.timestamps boolean?
  some ⟨level, timestamps⟩

/-- The form of reports. -/
def display? (v : Value) : Option ReportFormat := do
  let es ← section? ["format"] v
  fieldOr es "format" .text (choice? [.text, .json] ReportFormat.label)

/-- The record types of a schema. -/
def schema? (v : Value) : Option Definitions := do
  let es ← entries? v
  let types ← es.mapM fun e => (recordType? e.2).map (e.1, ·)
  some (.ofList types)

/-- The settings in the root table of a document. -/
def ofEntries? (es : Entries) : Option Settings := do
  let guesser ← fieldOr es "guesser" {} guesser?
  let logging ← fieldOr es "logging" {} logging?
  let format ← fieldOr es "display" .text display?
  let schema ← fieldOr es "schema" .empty schema?
  some ⟨guesser, logging, format, schema⟩

/-- The settings in a TOML document. -/
def ofToml? (t : Text) : Option Settings := (Toml.parse t).bind ofEntries?

/-- The settings in a TOML document, or the error that it holds none. -/
def ofToml (t : Text) : Except Error Settings :=
  match ofToml? t with
  | some s => .ok s
  | none => .error (.settings (.invalidFormat []))

/-! ## Writing -/

open Toml (Block Field)

/-- A table of fields with names of the library. -/
def block (header : String) (fields : List (String × Field)) : Block :=
  ⟨[header.toList], fields.map fun f => (f.1.toList, f.2)⟩

/-- The line of an attribute that is no relation. -/
def scalarField? : Text × Attribute → Option (Text × Field)
  | (name, .scalar type) => some (name, .text type)
  | _ => none

/-- The table of a relation. -/
def relationBlock? (path : Toml.KeyPath) : Text × Attribute → Option Block
  | (_, .scalar _) => none
  | (name, .toOne target) => some ⟨path ++ [name], [("to_one".toList, .text target)]⟩
  | (name, .toMany target) => some ⟨path ++ [name], [("to_many".toList, .text target)]⟩

/-- The tables of a record type: its own, unless it would have relations only, and one for each
relation. -/
def recordBlocks (name : Text) (type : RecordType) : List Block :=
  let path := ["schema".toList, name]
  let fields := type.parent.toList.map (fun p => (parentKey, Field.text p)) ++
    type.attributes.entries.filterMap scalarField?
  let relations := type.attributes.entries.filterMap (relationBlock? path)
  (if fields.isEmpty && !relations.isEmpty then [] else [⟨path, fields⟩]) ++ relations

/-- The tables of settings. -/
def blocks (s : Settings) : List Block :=
  [block "guesser" (s.guesser.root.toList.map (fun r => ("root_type", .text r)) ++
      [("qualified_attributes", .boolean s.guesser.qualified),
        ("excluded", .texts s.guesser.excluded)]),
    block "logging" [("level", .text s.logging.level.label.toList),
      ("timestamps", .boolean s.logging.timestamps)],
    block "display" [("format", .text s.format.label.toList)]] ++
    if s.schema.isEmpty then [block "schema" []]
    else s.schema.entries.flatMap fun e => recordBlocks e.1 e.2

/-- Settings as a TOML document. -/
def toToml (s : Settings) : Text := Toml.writeBlocks s.blocks

end Settings

end Typeahead
