import Typeahead.Schema.Attribute
import Typeahead.Text.Lower

/-!
# Attribute paths

A dotted text such as `bestFriend.dog.wat` walks relations from a root type; its last segment is a
fragment of the name of an attribute of the type reached. `Path.resolve` does the walk and
`Path.guesses` lists the attributes that the fragment may stand for. Case is ignored, except that an
exact name goes before one that differs in case.
-/

namespace Typeahead

/-- Where a dotted text leads. -/
structure Path where
  /-- The record type reached. -/
  recordType : Text
  /-- The names of the relations walked. -/
  segments : List Text
  /-- The unfinished last segment. -/
  fragment : Text
  /-- The attributes of the type reached. -/
  attributes : AttributeTable

namespace Path

/-- The attribute of this name, else the first whose name differs in case only. -/
def lookup (table : AttributeTable) (segment : Text) : Option (Text × Attribute) :=
  match table.get? segment with
  | some attr => some (segment, attr)
  | none => table.entries.find? fun e => Text.lower e.1 = Text.lower segment

/-- The relations named by the segments, walked from a record type with these attributes. -/
def walk (schema : Schema) (fragment : Text) (recordType : Text) (table : AttributeTable) :
    (walked : List Text) → (segments : List Text) → Option Path
  | walked, [] => some ⟨recordType, walked, fragment, table⟩
  | walked, segment :: rest =>
    match lookup table segment with
    | none => none
    | some (name, attr) =>
      match attr.target? with
      | none => none
      | some target =>
        match schema target with
        | none => none
        | some next => walk schema fragment target next (walked ++ [name]) rest

/-- The place that a dotted text leads to from a root type. There is none if the root is unknown or
a segment names no relation to a known type. -/
def resolve (schema : Schema) (root : Text) (t : Text) : Option Path :=
  let segments := Text.splitOn '.' t
  match schema root with
  | none => none
  | some table => walk schema (segments.getLastD []) root table [] segments.dropLast

/-- The names that match a fragment: first those that start with it, then those that have it further
in. -/
def matching (names : List Text) (fragment : Text) : List Text :=
  names.filter (fun n => Text.startsWith (Text.lower n) (Text.lower fragment)) ++
    names.filter fun n => (Text.find? (Text.lower fragment) (Text.lower n)).any (0 < ·)

/-- What stands before an attribute's name when it is given with its path. -/
def qualifier (p : Path) : Text :=
  if p.segments.isEmpty then [] else Text.join ['.'] p.segments ++ ['.']

/-- The attributes that a dotted text may stand for, with their paths if `qualified`. -/
def guesses (schema : Schema) (root : Text) (qualified : Bool) (t : Text) : List Text :=
  match resolve schema root t with
  | none => []
  | some p =>
    (matching p.attributes.keys p.fragment).map ((if qualified then p.qualifier else []) ++ ·)

end Path

end Typeahead
