import Typeahead.Toml.Chars

/-!
# TOML strings

A string has four forms: between double quotes, where a backslash escapes, between single quotes,
where nothing does, and both again between three quotes, where it may have several lines. Reading
starts after the opening quotes and ends after the closing ones. Writing takes the first form that
needs no escapes, and escapes only if there is none.
-/

namespace Typeahead.Toml

/-! ## Reading -/

/-- The value of a hexadecimal digit. -/
def hexDigit? (c : Char) : Option Nat :=
  if c.isDigit then some (c.toNat - '0'.toNat)
  else if 'a' ≤ c ∧ c ≤ 'f' then some (c.toNat - 'a'.toNat + 10)
  else if 'A' ≤ c ∧ c ≤ 'F' then some (c.toNat - 'A'.toNat + 10)
  else none

/-- The number that hexadecimal digits stand for, after those that stand for `n`. -/
def hexNumber? (n : Nat) : Text → Option Nat
  | [] => some n
  | c :: rest =>
    match hexDigit? c with
    | some d => hexNumber? (16 * n + d) rest
    | none => none

/-- The character whose code point hexadecimal digits give. -/
def hexChar? (digits : Text) : Option Char :=
  match hexNumber? 0 digits with
  | some n => if n.isValidChar then some (Char.ofNat n) else none
  | none => none

/-- The character that a backslash and a letter stand for. -/
def shortEscape? : Char → Option Char
  | 'b' => some '\x08'
  | 't' => some '\t'
  | 'n' => some '\n'
  | 'f' => some '\x0c'
  | 'r' => some '\r'
  | 'e' => some '\x1b'
  | '"' => some '"'
  | '\\' => some '\\'
  | _ => none

/-- A character in front of what a reader has read. -/
def consRead (c : Option Char) (read : Option (Text × Text)) : Option (Text × Text) :=
  match c, read with
  | some c, some (t, rest) => some (c :: t, rest)
  | _, _ => none

/-- The rest of a string between double quotes. -/
def readBasic : Reader Text
  | [] => none
  | '"' :: rest => some ([], rest)
  | '\\' :: 'x' :: a :: b :: rest => consRead (hexChar? [a, b]) (readBasic rest)
  | '\\' :: 'u' :: a :: b :: c :: d :: rest => consRead (hexChar? [a, b, c, d]) (readBasic rest)
  | '\\' :: 'U' :: a :: b :: c :: d :: e :: f :: g :: h :: rest =>
    consRead (hexChar? [a, b, c, d, e, f, g, h]) (readBasic rest)
  | '\\' :: c :: rest => consRead (shortEscape? c) (readBasic rest)
  | c :: rest => if c = '\\' ∨ isControl c then none else consRead (some c) (readBasic rest)

/-- The rest of a string between single quotes. -/
def readLiteral : Reader Text
  | [] => none
  | '\'' :: rest => some ([], rest)
  | c :: rest => if isControl c then none else consRead (some c) (readLiteral rest)

/-- Up to two quotes that stand before the closing ones belong to the string. -/
def extraQuotes (q : Char) : Text → Text × Text
  | a :: b :: rest =>
    if a = q then if b = q then ([q, q], rest) else ([q], b :: rest) else ([], a :: b :: rest)
  | [a] => if a = q then ([q], []) else ([], [a])
  | [] => ([], [])

/-- The rest of a string of several lines between double quotes. After a backslash at the end of a
line, blanks and line ends are skipped. -/
def readLongBasic (skipping : Bool) : Reader Text
  | [] => none
  | '"' :: '"' :: '"' :: rest => some (extraQuotes '"' rest)
  | '\r' :: '\n' :: rest =>
    if skipping then readLongBasic true rest
    else consRead (some '\r') (consRead (some '\n') (readLongBasic false rest))
  | '\\' :: 'x' :: a :: b :: rest => consRead (hexChar? [a, b]) (readLongBasic false rest)
  | '\\' :: 'u' :: a :: b :: c :: d :: rest =>
    consRead (hexChar? [a, b, c, d]) (readLongBasic false rest)
  | '\\' :: 'U' :: a :: b :: c :: d :: e :: f :: g :: h :: rest =>
    consRead (hexChar? [a, b, c, d, e, f, g, h]) (readLongBasic false rest)
  | '\\' :: c :: rest =>
    if isLineRest (c :: rest) then readLongBasic true (c :: rest)
    else consRead (shortEscape? c) (readLongBasic false rest)
  | c :: rest =>
    if skipping ∧ (isSpace c ∨ c = '\n') then readLongBasic true rest
    else if c = '\\' ∨ (isControl c ∧ c ≠ '\n') then none
    else consRead (some c) (readLongBasic false rest)

/-- The rest of a string of several lines between single quotes. -/
def readLongLiteral : Reader Text
  | [] => none
  | '\'' :: '\'' :: '\'' :: rest => some (extraQuotes '\'' rest)
  | '\r' :: '\n' :: rest => consRead (some '\r') (consRead (some '\n') (readLongLiteral rest))
  | c :: rest =>
    if isControl c ∧ c ≠ '\n' then none else consRead (some c) (readLongLiteral rest)

/-- A string of any form. -/
def readString? : Reader Text
  | '"' :: '"' :: '"' :: rest => readLongBasic false (dropLineEnd rest)
  | '\'' :: '\'' :: '\'' :: rest => readLongLiteral (dropLineEnd rest)
  | '"' :: rest => readBasic rest
  | '\'' :: rest => readLiteral rest
  | _ => none

/-! ## Writing -/

/-- The escape of a character that never stands for itself between double quotes. -/
def escape (c : Char) : Text :=
  if c = '\x08' then ['\\', 'b']
  else if c = '\t' then ['\\', 't']
  else if c = '\x0c' then ['\\', 'f']
  else if c = '\r' then ['\\', 'r']
  else if c = '\\' then ['\\', '\\']
  else if isControl c then
    let digits := (Nat.toDigits 16 c.toNat).map Char.toUpper
    ['\\', 'u'] ++ List.replicate (4 - digits.length) '0' ++ digits
  else [c]

/-- Between double quotes on one line. -/
def escapeLine (t : Text) : Text :=
  t.flatMap fun c =>
    if c = '\n' then ['\\', 'n'] else if c = '"' then ['\\', '"'] else escape c

/-- Between three double quotes, after `run` quotes in a row: the third quote in a row is escaped. -/
def escapeLines (run : Nat) : Text → Text
  | [] => []
  | c :: rest =>
    if c = '"' then
      if run = 2 then ['\\', '"'] ++ escapeLines 0 rest else '"' :: escapeLines (run + 1) rest
    else if c = '\n' then '\n' :: escapeLines 0 rest
    else escape c ++ escapeLines 0 rest

/-- Whether the text has more than two of a character in a row. -/
def hasRunOfThree (q : Char) : Text → Bool
  | a :: b :: c :: rest => (a == q && b == q && c == q) || hasRunOfThree q (b :: c :: rest)
  | _ => false

/-- A control character that has to be escaped in a value; a line end need not be. -/
def needsEscape (c : Char) : Bool := isControl c && c != '\n'

/-- The line end after opening quotes: it is written before a text of several lines. -/
def openLines (t : Text) : Text := if '\n' ∈ t then ['\n'] else []

/-- A string value. -/
def writeString (t : Text) : Text :=
  let plain := !t.any needsEscape
  let oneLine := '\n' ∉ t
  let longQuote := ['"', '"', '"']
  let longTick := ['\'', '\'', '\'']
  if plain && oneLine && '\\' ∉ t && '"' ∉ t then ['"'] ++ escapeLine t ++ ['"']
  else if plain && oneLine && '\'' ∉ t then ['\''] ++ t ++ ['\'']
  else if plain && '\\' ∉ t && !hasRunOfThree '"' t then
    longQuote ++ openLines t ++ escapeLines 0 t ++ longQuote
  else if plain && !hasRunOfThree '\'' t then longTick ++ openLines t ++ t ++ longTick
  else if oneLine then ['"'] ++ escapeLine t ++ ['"']
  else longQuote ++ openLines t ++ escapeLines 0 t ++ longQuote

/-- A key: without quotes where possible. -/
def writeKey (t : Text) : Text :=
  if t ≠ [] && t.all isBareKeyChar then t
  else if !t.any isControl && '\\' ∉ t && '"' ∉ t then ['"'] ++ escapeLine t ++ ['"']
  else if !t.any isControl && '\'' ∉ t then ['\''] ++ t ++ ['\'']
  else ['"'] ++ escapeLine t ++ ['"']

end Typeahead.Toml
