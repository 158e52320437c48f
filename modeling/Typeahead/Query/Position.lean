import Typeahead.Query.Nesting
import Typeahead.Grammar.Basic

/-!
# Positions and predictions

The last token of a query decides which slot the next one fills (`Position.after`), and the slot
decides which kinds of token may come (`Position.predict`).
-/

namespace Typeahead

/-- The slot that the next token fills. -/
inductive Position where
  /-- The start of an expression. -/
  | beginning
  /-- After an attribute. -/
  | middle
  /-- After a comparison. -/
  | ending
  /-- After a complete expression. -/
  | after
  /-- After something unreadable. -/
  | unknown
  deriving DecidableEq

/-- The name of a position. -/
def Position.label : Position → String
  | beginning => "BEGINNING"
  | middle => "MIDDLE"
  | ending => "END"
  | after => "AFTER"
  | unknown => "UNKNOWN"

/-- Why no guess can be made. -/
inductive GuessError where
  /-- The last token leads to no position. -/
  | noPosition (kind : TokenKind)
  deriving DecidableEq

/-- The wording of a failure to guess. -/
def GuessError.message : GuessError → String
  | noPosition kind => s!"unable to determine the query position after token '{kind.label}'"

namespace Position

/-- The position after a token with this rule. -/
def afterRule (kind : TokenKind) (rule : Rule) : Except GuessError Position :=
  match rule.eval, rule.right with
  | some .boolean, some .boolean => .ok beginning
  | eval, right =>
    if kind = .property then .ok middle
    else match eval, right with
      | some .boolean, some .primitive => .ok ending
      | some .primitive, _ => .ok after
      | some .boolean, none => .ok after
      | _, _ => if kind = .closeParen then .ok after else .error (.noPosition kind)

/-- The position after the last token, if there is one. -/
def ofLast (g : Grammar) (last : Option Token) : Except GuessError Position :=
  match last.map Token.kind with
  | none => .ok beginning
  | some .unknown => .ok unknown
  | some .openParen => .ok beginning
  | some kind =>
    match g.get? kind with
    | some rule => afterRule kind rule
    | none => if kind = .closeParen then .ok after else .error (.noPosition kind)

/-- The kinds whose rules pass a test, in the order of the grammar. -/
def kindsWhere (g : Grammar) (keep : TokenKind → Rule → Bool) : List TokenKind :=
  (g.entries.filter fun e => keep e.1 e.2).map Prod.fst

/-- The kinds of token that may come at a position; `inside` tells whether a group is open. -/
def predict (g : Grammar) (inside : Bool) : Position → List TokenKind
  | beginning =>
    [.openParen, .property] ++
      kindsWhere g fun _ r => r.eval = some .boolean && r.left = none
  | middle => kindsWhere g fun _ r => r.eval = some .boolean && r.left = some .primitive
  | ending => kindsWhere g fun k r => k ≠ .property && r.eval = some .primitive
  | after =>
    (if inside then [.closeParen] else []) ++
      kindsWhere g fun _ r => r.eval = some .boolean && r.left = some .boolean
  | unknown => []

end Position

/-- The kinds of token that may follow the tokens of a query. -/
def predictNext (g : Grammar) (tokens : List Token) : Except GuessError (List TokenKind) :=
  (Position.ofLast g tokens.getLast?).map (Position.predict g (Nesting.endsInside tokens))

end Typeahead
