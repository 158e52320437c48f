import Typeahead.OrderedMap
import Typeahead.Text.Basic

/-!
# Attributes of records

A record type has attributes: plain values, or relations that lead to other records.
-/

namespace Typeahead

/-- What an attribute holds. -/
inductive Attribute where
  /-- A value of the named type. -/
  | scalar (type : Text)
  /-- One record of the named type. -/
  | toOne (target : Text)
  /-- Many records of the named type. -/
  | toMany (target : Text)
  deriving DecidableEq

namespace Attribute

/-- The record type at the other end of a relation. -/
def target? : Attribute → Option Text
  | scalar _ => none
  | toOne target => some target
  | toMany target => some target

/-- Whether the attribute leads to other records. -/
def isRelation (a : Attribute) : Bool := a.target?.isSome

end Attribute

/-- The attributes of a record type in the order of their declaration. -/
abbrev AttributeTable := OrderedMap Text Attribute

/-- What a path walk wants to know of a schema: the attributes of a record type, if it is known. -/
abbrev Schema := Text → Option AttributeTable

/-- Why a change to a schema is refused. -/
inductive SchemaError where
  | unknownType (name : Text)
  | unknownParent (name parent : Text)
  | inheritanceCycle (name : Text)
  deriving DecidableEq

/-- The wording of a refusal. -/
def SchemaError.message : SchemaError → String
  | unknownType name => s!"unknown record type: {String.ofList name}"
  | unknownParent name parent =>
    s!"record type '{String.ofList name}' extends unknown type '{String.ofList parent}'"
  | inheritanceCycle name => s!"record type '{String.ofList name}' inherits from itself"

end Typeahead
