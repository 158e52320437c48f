import Typeahead.Query.Position

/-!
# Snapshots

What a session shows: the draft, what may come next, whether the query is complete, and the whole
query as a text with its open groups closed.
-/

namespace Typeahead

/-- The state of a session as its observers see it. -/
structure Snapshot where
  text : Text
  tokens : List Token
  /-- Absent if the last token leads to no position. -/
  position : Option Position
  predictions : List TokenKind
  guesses : List Text
  isValid : Bool
  openCount : Nat
  fullText : Text
  deriving DecidableEq

/-- The whole query: the literals of the tokens and the text after them, with a blank between
neighbours, and a closing parenthesis for each of `openCount` groups. -/
def fullText (tokens : List Token) (t : Text) (openCount : Nat) : Text :=
  Text.join [' '] (tokens.map Token.literal ++ if t.isEmpty then [] else [t]) ++
    (List.replicate openCount [' ', ')']).flatten

end Typeahead
