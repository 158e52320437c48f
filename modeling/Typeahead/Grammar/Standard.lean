import Typeahead.Grammar.Basic

/-!
# The standard grammar

The rules of the query language itself. There is one for every kind of token (`get?_standard`), in
the order of `TokenKind.all`.
-/

namespace Typeahead

namespace CharClass

/-- An ASCII letter, an ASCII digit or an underscore. -/
def isWord (c : Char) : Bool := c.isAlphanum || c == '_'

/-- Either quote. -/
def isQuote (c : Char) : Bool := c == '\'' || c == '"'

/-- A parenthesis or a brace. -/
def isBracket (c : Char) : Bool := c == '(' || c == ')' || c == '\x7b' || c == '\x7d'

/-- A character that belongs to no word, string, group or blank: the start of an operator or of
something unreadable. -/
def isSymbol (c : Char) : Bool := !(Text.isBlank c || isQuote c || isWord c || isBracket c)

/-- The start of an attribute path. -/
def startsPath (c : Char) : Bool := c.isAlpha || c == '_'

/-- What an attribute path goes on with. -/
def continuesPath (c : Char) : Bool := isWord c || c == '.'

/-- The start of a number. -/
def startsNumber (c : Char) : Bool := c.isDigit || c == '-'

/-- What a number goes on with. -/
def continuesNumber (c : Char) : Bool := c.isDigit || c == '-' || c == '.'

end CharClass

open CharClass

/-- One or more digits. -/
def isDigits (t : Text) : Bool := !t.isEmpty && t.all Char.isDigit

/-- A number: an optional minus sign and digits, with at most one point between digits. -/
def isNumeral (t : Text) : Bool :=
  let digits := match t with
    | '-' :: rest => rest
    | _ => t
  match digits.span (· ≠ '.') with
  | (whole, _ :: fraction) => isDigits whole && isDigits fraction
  | (whole, []) => isDigits whole

namespace Grammar

/-- A parenthesis is a token of its own. -/
def parenthesis (paren : Char) : Rule where
  single := true
  lexeme := some { starts := (· == paren), stops := fun _ => true }

/-- The standard rule of each kind. -/
def standardRule : TokenKind → Rule
  | .unknown =>
    { lexeme := some { starts := isSymbol, stops := fun c => c == '-' || !isSymbol c } }
  | .property =>
    { eval := some .primitive
      lexeme := some { starts := startsPath, stops := fun c => !continuesPath c } }
  | .number =>
    { eval := some .primitive
      lexeme := some
        { starts := startsNumber, stops := fun c => !continuesNumber c, format := some isNumeral } }
  | .string =>
    { eval := some .primitive, lexeme := some (Lexeme.delimited isQuote .matching) }
  | .parameter =>
    { eval := some .primitive
      lexeme := some (Lexeme.delimited (· == '\x7b') (.closing '\x7d')) }
  | .openParen => parenthesis '('
  | .closeParen => parenthesis ')'
  | .andOp | .orOp => Rule.operator (some .boolean) (some .boolean)
  | .notOp => Rule.operator none (some .boolean)
  | .typeIs => Rule.operator none (some .primitive)
  | .equal | .notEqual | .less | .atMost | .greater | .atLeast | .beginsWith | .endsWith
  | .contains | .any | .matchesPattern => Rule.operator (some .primitive) (some .primitive)
  | .placeholder | .null | .undefined | .falsity | .truth | .no | .yes => Rule.keyword

/-- The grammar of the query language. -/
def standard : Grammar :=
  ⟨TokenKind.all.map fun k => (k, standardRule k), by decide⟩

/-- Every kind has its rule. -/
theorem get?_standard (k : TokenKind) : standard.get? k = some (standardRule k) := by
  cases k <;> rfl

end Grammar

end Typeahead
