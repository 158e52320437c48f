import Typeahead.Text.Basic

/-!
# Kinds of tokens

The symbols of the query language, each with its canonical name. For a keyword or an operator the
name is also how it is typed.
-/

namespace Typeahead

/-- A symbol of the query language. -/
inductive TokenKind where
  | unknown | property | number | string | parameter | placeholder
  | openParen | closeParen
  | andOp | orOp | notOp
  | equal | notEqual | less | atMost | greater | atLeast
  | beginsWith | endsWith | contains | any | matchesPattern | typeIs
  | null | undefined | falsity | truth | no | yes
  deriving DecidableEq

namespace TokenKind

/-- Every kind once, in the order of the standard grammar. -/
def all : List TokenKind :=
  [unknown, property, number, string, parameter, placeholder, openParen, closeParen, andOp, orOp,
    notOp, equal, notEqual, less, atMost, greater, atLeast, beginsWith, endsWith, contains, any,
    matchesPattern, typeIs, null, undefined, falsity, truth, no, yes]

/-- The canonical name. -/
def label : TokenKind → String
  | unknown => "UNKNOWN"
  | property => "PROPERTY"
  | number => "NUMBER"
  | string => "STRING"
  | parameter => "PARAMETER"
  | placeholder => "%@"
  | openParen => "OPEN_PAREN"
  | closeParen => "CLOSE_PAREN"
  | andOp => "AND"
  | orOp => "OR"
  | notOp => "NOT"
  | equal => "="
  | notEqual => "!="
  | less => "<"
  | atMost => "<="
  | greater => ">"
  | atLeast => ">="
  | beginsWith => "BEGINS_WITH"
  | endsWith => "ENDS_WITH"
  | contains => "CONTAINS"
  | any => "ANY"
  | matchesPattern => "MATCHES"
  | typeIs => "TYPE_IS"
  | null => "null"
  | undefined => "undefined"
  | falsity => "false"
  | truth => "true"
  | no => "NO"
  | yes => "YES"

/-- The canonical name as a text. -/
def name (k : TokenKind) : Text := k.label.toList

/-- The kind of a canonical name. -/
def ofName? (t : Text) : Option TokenKind := all.find? fun k => k.name = t

/-- The word for a kind in the description of a session. -/
def title : TokenKind → String
  | unknown => "Unknown"
  | property => "Property"
  | number => "Number"
  | string => "String"
  | parameter => "Parameter"
  | placeholder => "Placeholder"
  | openParen => "OpenParen"
  | closeParen => "CloseParen"
  | andOp => "And"
  | orOp => "Or"
  | notOp => "Not"
  | equal => "Eq"
  | notEqual => "Ne"
  | less => "Lt"
  | atMost => "Le"
  | greater => "Gt"
  | atLeast => "Ge"
  | beginsWith => "BeginsWith"
  | endsWith => "EndsWith"
  | contains => "Contains"
  | any => "Any"
  | matchesPattern => "Matches"
  | typeIs => "TypeIs"
  | null => "Null"
  | undefined => "Undefined"
  | falsity => "False"
  | truth => "True"
  | no => "No"
  | yes => "Yes"

theorem mem_all (k : TokenKind) : k ∈ all := by cases k <;> decide

end TokenKind

end Typeahead
