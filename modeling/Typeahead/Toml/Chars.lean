import Typeahead.Toml.Value

/-!
# Characters of TOML

Which characters may stand where, and the filler between values: blanks, line ends and comments.
-/

namespace Typeahead.Toml

/-- A blank within a line. -/
def isSpace (c : Char) : Bool := c == ' ' || c == '\t'

/-- A control character other than the tab; none may stand in a comment or on a line of a string. -/
def isControl (c : Char) : Bool := (c.toNat < 0x20 && c != '\t') || c.toNat == 0x7f

/-- What a key without quotes is made of. -/
def isBareKeyChar (c : Char) : Bool := c.isAlphanum || c == '_' || c == '-'

/-- What a value without quotes is made of. -/
def isAtomChar (c : Char) : Bool := isBareKeyChar c || c == '+' || c == '.' || c == ':'

/-- The text without blanks in front of it. -/
def skipSpaces (t : Text) : Text := t.dropWhile isSpace

/-- The text without the blanks, line ends and comments in front of it. -/
def skipFiller (inComment : Bool) : Text → Option Text
  | [] => some []
  | '\n' :: rest => skipFiller false rest
  | '\r' :: '\n' :: rest => skipFiller false rest
  | c :: rest =>
    if inComment then if isControl c then none else skipFiller true rest
    else if isSpace c then skipFiller false rest
    else if c = '#' then skipFiller true rest
    else some (c :: rest)

/-- The text after the end of the line, which may be preceded by blanks and a comment. -/
def skipLineEnd (inComment : Bool) : Text → Option Text
  | [] => some []
  | '\n' :: rest => some rest
  | '\r' :: '\n' :: rest => some rest
  | c :: rest =>
    if inComment then if isControl c then none else skipLineEnd true rest
    else if isSpace c then skipLineEnd false rest
    else if c = '#' then skipLineEnd true rest
    else none

/-- The text after a line end in front of it, if there is one. -/
def dropLineEnd : Text → Text
  | '\n' :: rest => rest
  | '\r' :: '\n' :: rest => rest
  | t => t

/-- Whether nothing but blanks comes before the end of the line. -/
def isLineRest (t : Text) : Bool :=
  match skipSpaces t with
  | '\n' :: _ => true
  | '\r' :: '\n' :: _ => true
  | _ => false

end Typeahead.Toml
