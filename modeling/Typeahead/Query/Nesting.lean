import Typeahead.Token.Basic

/-!
# Open groups

How many groups a list of tokens leaves open, and whether its end lies inside one.
-/

namespace Typeahead

namespace Nesting

/-- An opening parenthesis counts one, a closing one minus one. -/
def weight (t : Token) : Int :=
  match t.kind with
  | .openParen => 1
  | .closeParen => -1
  | _ => 0

/-- Openers less closers. -/
def balance : List Token → Int
  | [] => 0
  | t :: rest => weight t + balance rest

/-- The number of closers a query still wants; more closers than openers want none. -/
def openCount (tokens : List Token) : Nat := (balance tokens).toNat

/-- Whether openers outnumber closers at some point of a walk that starts with balance `b`. -/
def rises (b : Int) : List Token → Bool
  | [] => false
  | t :: rest => 0 < b + weight t || rises (b + weight t) rest

/-- Whether the end of the tokens lies inside an open group: walking backward, at some point openers
outnumber closers. -/
def endsInside (tokens : List Token) : Bool := rises 0 tokens.reverse

end Nesting

end Typeahead
