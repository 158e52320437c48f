import Typeahead.Token.Kind

/-!
# Tokens

A token is a kind with its text. Strings and parameters carry their body only, so `literal` puts
the delimiters back, and a string remembers the quote it was typed with.
-/

namespace Typeahead

/-- A piece of a query. -/
structure Token where
  kind : TokenKind
  /-- The text; for strings and parameters what stands between the delimiters. -/
  value : Text
  /-- The quote a string was typed with. -/
  quote : Option Char := none
  deriving DecidableEq

namespace Token

/-- The quote that encloses a string: the one it was typed with, else `"`, unless the string itself
has a `"`. -/
def enclosingQuote (t : Token) : Char :=
  t.quote.getD (if '"' ∈ t.value then '\'' else '"')

/-- The token as it would be typed. -/
def literal (t : Token) : Text :=
  match t.kind with
  | .string => [t.enclosingQuote] ++ t.value ++ [t.enclosingQuote]
  | .parameter => ['\x7b'] ++ t.value ++ ['\x7d']
  | _ => t.value

/-- Every way the token may have been typed: a string without a recorded quote accepts either. -/
def spellings (t : Token) : List Text :=
  if t.kind = .string ∧ t.quote = none then
    [['"'] ++ t.value ++ ['"'], ['\''] ++ t.value ++ ['\'']]
  else [t.literal]

end Token

end Typeahead
