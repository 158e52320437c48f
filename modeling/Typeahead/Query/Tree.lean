import Typeahead.Query.Error

/-!
# Query trees

`Tree.ofTokens` builds the expression tree of a list of tokens, or tells why there is none. The
grammar decides everything. Operators that want a boolean on their left (connectives) bind looser
than those that want a primitive (comparisons), both group to the left, and a prefix operator takes
the loosest operand that binds tighter than its own kind.

Tokens are read one at a time. What has been read is a `Stage`: the constructs still open, innermost
first, and the operand held, if one is complete. A token that cannot continue the operand held
closes the innermost construct and is offered to the next one.
-/

namespace Typeahead

/-- The expression that a query stands for. -/
inductive Tree where
  | leaf (token : Token)
  | group (inner : Tree)
  | prefixOp (operator : Token) (operand : Tree)
  | infixOp (operator : Token) (left right : Tree)
  | postfixOp (operator : Token) (operand : Tree)
  deriving DecidableEq

/-- How tightly an operator holds a left operand of this type. -/
def ValueType.power : ValueType → Nat
  | .boolean => 1
  | .primitive => 2

/-- A construct that waits for its last operand. -/
inductive Frame where
  /-- A parenthesis. -/
  | group (position : Nat)
  /-- A prefix operator. -/
  | prefixOp (position : Nat) (operator : Token) (wants gives : ValueType)
  /-- An operator that has its left operand. -/
  | infixOp (position : Nat) (operator : Token) (left : Tree) (power : Nat)
      (wants gives : ValueType)
  deriving DecidableEq

/-- The least power with which an operator continues the operand inside the innermost construct. -/
def Frame.floor : List Frame → Nat
  | [] | .group _ :: _ => 0
  | .prefixOp _ _ wants _ :: _ => wants.power + 1
  | .infixOp _ _ _ power _ _ :: _ => power + 1

/-- What has been read of a query: the open constructs, innermost first, and whether an operand is
complete. -/
inductive Stage where
  | awaiting (frames : List Frame)
  | holding (frames : List Frame) (tree : Tree) (type : ValueType)
  deriving DecidableEq

/-- How an operator continues a complete operand: what it wants on its left and on its right, and
what it evaluates to. -/
structure Continuation where
  left : ValueType
  right : Option ValueType
  eval : ValueType

/-- The way a token of this kind continues an operand, if it does. -/
def Grammar.continuation? (g : Grammar) (kind : TokenKind) : Option Continuation :=
  match g.get? kind with
  | some { left := some left, right := right, eval := some eval, .. } => some ⟨left, right, eval⟩
  | _ => none

namespace Stage

/-- The error for a token found where the expression has ended. -/
def strayError (position : Nat) (token : Token) : QueryError :=
  match token.kind with
  | .unknown => .unknownToken position token.value
  | .closeParen => .unmatchedParen position
  | _ => .trailingTokens position

/-- Reading a token where an operand is wanted. -/
def readOperand (g : Grammar) (position : Nat) (token : Token) (frames : List Frame) :
    Except QueryError Stage :=
  match token.kind with
  | .unknown => .error (.unknownToken position token.value)
  | .openParen => .ok (.awaiting (.group position :: frames))
  | .closeParen => .error (.unmatchedParen position)
  | kind =>
    match g.get? kind with
    | some { eval := some eval, left := none, right := some wants, .. } =>
      .ok (.awaiting (.prefixOp position token wants eval :: frames))
    | some { eval := some eval, left := none, right := none, .. } =>
      .ok (.holding frames (.leaf token) eval)
    | _ => .error (.unexpectedToken position kind)

/-- Reading an operator that continues the operand held. -/
def readOperator (position : Nat) (token : Token) (c : Continuation) (frames : List Frame)
    (tree : Tree) (type : ValueType) : Except QueryError Stage :=
  if c.left = type then
    match c.right with
    | some wants =>
      .ok (.awaiting (.infixOp position token tree c.left.power wants c.eval :: frames))
    | none => .ok (.holding frames (.postfixOp token tree) c.eval)
  else .error (.typeMismatch position token.kind c.left type)

/-- Closing the innermost constructs until the token continues the operand held, closes a
parenthesis or turns out to be a stray one. -/
def readAfter (g : Grammar) (position : Nat) (token : Token) (frames : List Frame) (tree : Tree)
    (type : ValueType) : Except QueryError Stage :=
  match (g.continuation? token.kind).filter (Frame.floor frames ≤ ·.left.power) with
  | some c => readOperator position token c frames tree type
  | none =>
    match frames with
    | [] => .error (strayError position token)
    | .group _ :: outer =>
      if token.kind = .closeParen then .ok (.holding outer (.group tree) type)
      else .error (strayError position token)
    | .prefixOp site operator wants gives :: outer =>
      if wants = type then readAfter g position token outer (.prefixOp operator tree) gives
      else .error (.typeMismatch site operator.kind wants type)
    | .infixOp site operator left _ wants gives :: outer =>
      if wants = type then readAfter g position token outer (.infixOp operator left tree) gives
      else .error (.typeMismatch site operator.kind wants type)

/-- Reading the token at a position. -/
def read (g : Grammar) (position : Nat) (token : Token) : Stage → Except QueryError Stage
  | awaiting frames => readOperand g position token frames
  | holding frames tree type => readAfter g position token frames tree type

/-- Reading tokens, the first of them at `position`. -/
def readAll (g : Grammar) (position : Nat) : Stage → List Token → Except QueryError Stage
  | stage, [] => .ok stage
  | stage, token :: rest =>
    match stage.read g position token with
    | .ok next => readAll g (position + 1) next rest
    | .error e => .error e

/-- Closing every construct at the end of the query. -/
def closeAll : List Frame → Tree → ValueType → Except QueryError Tree
  | [], tree, _ => .ok tree
  | .group position :: _, _, _ => .error (.unclosedParen position)
  | .prefixOp position operator wants gives :: outer, tree, type =>
    if wants = type then closeAll outer (.prefixOp operator tree) gives
    else .error (.typeMismatch position operator.kind wants type)
  | .infixOp position operator left _ wants gives :: outer, tree, type =>
    if wants = type then closeAll outer (.infixOp operator left tree) gives
    else .error (.typeMismatch position operator.kind wants type)

/-- The tree at the end of a query whose last token is of kind `last`. -/
def finish (last : TokenKind) : Stage → Except QueryError Tree
  | awaiting _ => .error (.emptyOperand last)
  | holding frames tree type => closeAll frames tree type

end Stage

/-- The tree of a complete query; no tokens are a query without a tree. -/
def Tree.ofTokens (g : Grammar) (tokens : List Token) : Except QueryError (Option Tree) :=
  match tokens.getLast? with
  | none => .ok none
  | some last =>
    match (Stage.awaiting []).readAll g 0 tokens with
    | .ok stage => (stage.finish last.kind).map some
    | .error e => .error e

end Typeahead
