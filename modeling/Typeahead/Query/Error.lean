import Typeahead.Grammar.Basic

/-!
# What is wrong with a query

The reasons for which a list of tokens is not a complete query. Positions count tokens from zero.
-/

namespace Typeahead

/-- Why a list of tokens is no complete query. -/
inductive QueryError where
  /-- The token could not be read. -/
  | unknownToken (position : Nat) (value : Text)
  /-- The token cannot stand where an operand is wanted. -/
  | unexpectedToken (position : Nat) (found : TokenKind)
  /-- The query ends where an operand is wanted. -/
  | emptyOperand (after : TokenKind)
  /-- An operand has the wrong type for the operator at this position. -/
  | typeMismatch (position : Nat) (operator : TokenKind) (expected found : ValueType)
  /-- The parenthesis at this position is never closed. -/
  | unclosedParen (position : Nat)
  /-- A closing parenthesis stands where none can. -/
  | unmatchedParen (position : Nat)
  /-- A token follows a complete query. -/
  | trailingTokens (position : Nat)
  deriving DecidableEq

/-- The wording of a reason. -/
def QueryError.message : QueryError → String
  | unknownToken position value =>
    s!"unknown token '{String.ofList value}' at position {position}"
  | unexpectedToken position found => s!"unexpected '{found.label}' at position {position}"
  | emptyOperand after => s!"expected an operand after '{after.label}'"
  | typeMismatch position operator expected found =>
    s!"'{operator.label}' at position {position} expects {expected.label}, found {found.label}"
  | unclosedParen position => s!"parenthesis at position {position} is never closed"
  | unmatchedParen position =>
    s!"closing parenthesis at position {position} has no opening one"
  | trailingTokens position =>
    s!"query did not resolve to a single tree (extra token at position {position})"

end Typeahead
