import Typeahead.OrderedMap
import Typeahead.Token.Basic

/-!
# Grammars

A grammar gives each of its token kinds a rule: what the symbol evaluates to and which operands it
wants, whether it is a keyword, and how it is read from text. The order of the rules matters. It is
the order of predictions, and where several rules start on the same character the last one wins.
-/

namespace Typeahead

/-- What a symbol evaluates to, or wants as an operand. -/
inductive ValueType where
  | boolean | primitive
  deriving DecidableEq

/-- The name shown in messages. -/
def ValueType.label : ValueType → String
  | boolean => "BOOLEAN"
  | primitive => "PRIMITIVE"

/-- How a delimited token ends. -/
inductive Delimiter where
  /-- At the character that opened it. -/
  | matching
  /-- At a fixed character. -/
  | closing (c : Char)
  deriving DecidableEq

/-- How a kind of token is read from text. -/
structure Lexeme where
  /-- The characters that start the token. -/
  starts : Char → Bool
  /-- The characters that end it, if it is not delimited. -/
  stops : Char → Bool
  /-- Present if the token's text stands between delimiters. -/
  delimiter : Option Delimiter := none
  /-- A test of the whole text; a token that fails it is unknown. -/
  format : Option (Text → Bool) := none

/-- A token between delimiters. -/
def Lexeme.delimited (starts : Char → Bool) (delimiter : Delimiter) : Lexeme where
  starts := starts
  stops := fun _ => false
  delimiter := some delimiter

/-- The grammar's rule for one kind of token. -/
structure Rule where
  /-- What the symbol evaluates to. -/
  eval : Option ValueType := none
  /-- The operand it wants on its left. -/
  left : Option ValueType := none
  /-- The operand it wants on its right. -/
  right : Option ValueType := none
  /-- A keyword or symbol that is typed as its name and offered as a guess. -/
  reserved : Bool := false
  /-- Committed as soon as it is recognised. -/
  single : Bool := false
  lexeme : Option Lexeme := none

namespace Rule

/-- A value on its own. -/
def isLeaf (r : Rule) : Bool := r.eval.isSome && r.left.isNone && r.right.isNone

/-- An operator in front of its operand. -/
def isPrefixOp (r : Rule) : Bool := r.eval.isSome && r.left.isNone && r.right.isSome

/-- An operator between two operands. -/
def isInfixOp (r : Rule) : Bool := r.eval.isSome && r.left.isSome && r.right.isSome

/-- An operator behind its operand. -/
def isPostfixOp (r : Rule) : Bool := r.eval.isSome && r.left.isSome && r.right.isNone

/-- An operator that evaluates to a boolean. -/
def operator (left right : Option ValueType) : Rule where
  eval := some .boolean
  left := left
  right := right
  reserved := true

/-- A primitive value that is typed as a keyword. -/
def keyword : Rule where
  eval := some .primitive
  reserved := true

end Rule

/-- A rule for each kind of token in the language, in order. -/
abbrev Grammar := OrderedMap TokenKind Rule

/-- Why a grammar, or the name of a kind, is refused. -/
inductive GrammarError where
  | missingKind (kind : TokenKind)
  | unknownName (name : Text)
  deriving DecidableEq

/-- The wording of a refusal. -/
def GrammarError.message : GrammarError → String
  | missingKind kind => s!"grammar has no entry for '{kind.label}'"
  | unknownName name => s!"unknown token type: {String.ofList name}"

/-- The kind of a canonical name, or the reason there is none. -/
def TokenKind.parse (name : Text) : Except GrammarError TokenKind :=
  match TokenKind.ofName? name with
  | some kind => .ok kind
  | none => .error (.unknownName name)

namespace Grammar

/-- The keyword typed as `t`; of several rules the last one. -/
def keyword? (g : Grammar) (t : Text) : Option TokenKind :=
  ((g.entries.filter fun e => e.2.reserved && e.1.name = t).map Prod.fst).getLast?

/-- The rule that reads a token starting on `c`, with its lexeme; of several the last one. -/
def starting? (g : Grammar) (c : Char) : Option (TokenKind × Lexeme × Bool) :=
  ((g.entries.filterMap fun e => e.2.lexeme.map fun l => (e.1, l, e.2.single)).filter
    fun e => e.2.1.starts c).getLast?

/-- The kinds that predictions and groups rely on. -/
def structuralKinds : List TokenKind := [.property, .openParen, .closeParen]

/-- A closed grammar has a rule for each structural kind; else the first missing one is named. -/
def checkClosed (g : Grammar) : Except GrammarError Unit :=
  match structuralKinds.find? fun k => !g.contains k with
  | some kind => .error (.missingKind kind)
  | none => .ok ()

end Grammar

end Typeahead
