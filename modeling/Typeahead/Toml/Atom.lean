import Typeahead.Toml.Chars

/-!
# Values without quotes

Booleans, numbers, dates and times are read from a run of characters, which has to be one of them as
a whole. A number that no machine number can hold is refused.
-/

namespace Typeahead.Toml

/-- Digits of a base, with single underscores between them. -/
def isDigitRun (isDigit : Char → Bool) : Text → Bool
  | [] => false
  | [c] => isDigit c
  | c :: '_' :: rest => isDigit c && isDigitRun isDigit rest
  | c :: rest => isDigit c && isDigitRun isDigit rest

/-- A digit to the base ten. -/
def isDecimal (c : Char) : Bool := c.isDigit

/-- The text without a sign in front. -/
def dropSign : Text → Text
  | '+' :: rest => rest
  | '-' :: rest => rest
  | t => t

/-- A decimal integer without sign: no zero stands before other digits. -/
def isWhole (t : Text) : Bool := t == ['0'] || (isDigitRun isDecimal t && t.head? != some '0')

/-- The number that digits stand for to a base, underscores left out. -/
def digitsValue (base : Nat) (t : Text) : Nat :=
  t.foldl (fun n c => if c = '_' then n else base * n + (c.toLower.toNat -
    (if c.isDigit then '0'.toNat else 'a'.toNat - 10))) 0

/-- The base that a two-letter mark in front of an integer stands for. -/
def radix? : Text → Option (Nat × Text)
  | '0' :: 'x' :: rest => some (16, rest)
  | '0' :: 'o' :: rest => some (8, rest)
  | '0' :: 'b' :: rest => some (2, rest)
  | _ => none

/-- A digit to one of the bases of integers. -/
def isDigitOf (base : Nat) (c : Char) : Bool :=
  if base = 16 then c.isDigit || ('a' ≤ c && c ≤ 'f') || ('A' ≤ c && c ≤ 'F')
  else c.isDigit && c.toNat - '0'.toNat < base

/-- An integer of at most 128 bits. -/
def isInteger (t : Text) : Bool :=
  match radix? t with
  | some (base, digits) => isDigitRun (isDigitOf base) digits && digitsValue base digits < Nat.pow 2 128
  | none =>
    isWhole (dropSign t) &&
      (if t.head? = some '-' then digitsValue 10 (dropSign t) ≤ Nat.pow 2 127
        else digitsValue 10 (dropSign t) < Nat.pow 2 128)

/-- The parts of a text before and after the first character that satisfies `p`, if there is one. -/
def splitAt? (p : Char → Bool) (t : Text) : Option (Text × Text) :=
  match t.span (!p ·) with
  | (before, _ :: after) => some (before, after)
  | (_, []) => none

/-- The least number that is too large for a double: half way from the largest double to the next
power of two. -/
def doubleBound : Nat := Nat.pow 2 1024 - Nat.pow 2 970

/-- Whether `digits · 10 ^ exponent` is a finite double when rounded. -/
def fitsDouble (digits : Nat) (exponent : Int) : Bool :=
  let size : Int := (Nat.toDigits 10 digits).length + exponent
  if digits = 0 ∨ size < 300 then true
  else if 320 < size then false
  else if 0 ≤ exponent then digits * Nat.pow 10 exponent.toNat < doubleBound
  else digits < doubleBound * Nat.pow 10 (-exponent).toNat

/-- A decimal float without sign. -/
def isDecimalFloat (t : Text) : Bool :=
  let (mantissa, exponent) := match splitAt? (fun c => c == 'e' || c == 'E') t with
    | some (m, e) => (m, some e)
    | none => (t, none)
  let (whole, fraction) := match splitAt? (· == '.') mantissa with
    | some (w, f) => (w, some f)
    | none => (mantissa, none)
  let exponentValue : Int := match exponent with
    | some ('-' :: e) => -digitsValue 10 e
    | some e => digitsValue 10 (dropSign e)
    | none => 0
  (exponent.isSome || fraction.isSome) && isWhole whole &&
    fraction.all (isDigitRun isDecimal) &&
    exponent.all (fun e => isDigitRun isDecimal (dropSign e)) &&
    fitsDouble (digitsValue 10 (whole ++ fraction.getD []))
      (exponentValue - ((fraction.getD []).filter (· ≠ '_')).length)

/-- A float. -/
def isFloat (t : Text) : Bool :=
  dropSign t == "inf".toList || dropSign t == "nan".toList || isDecimalFloat (dropSign t)

/-! ## Dates and times -/

/-- Two digits in front of a text. -/
def twoDigits? : Reader Nat
  | a :: b :: rest =>
    if a.isDigit ∧ b.isDigit then some (digitsValue 10 [a, b], rest) else none
  | _ => none

/-- The number of days of a month. -/
def daysOf (year month : Nat) : Nat :=
  if month = 2 then
    if year % 4 = 0 ∧ (year % 100 ≠ 0 ∨ year % 400 = 0) then 29 else 28
  else if month = 4 ∨ month = 6 ∨ month = 9 ∨ month = 11 then 30
  else 31

/-- The text after a date, if it starts with one. -/
def dropDate? (t : Text) : Option Text := do
  let (century, t) ← twoDigits? t
  let (year, t) ← twoDigits? t
  let t ← Text.dropPrefix? ['-'] t
  let (month, t) ← twoDigits? t
  let t ← Text.dropPrefix? ['-'] t
  let (day, t) ← twoDigits? t
  if 1 ≤ month ∧ month ≤ 12 ∧ 1 ≤ day ∧ day ≤ daysOf (100 * century + year) month then some t
  else none

/-- The text after the fraction of a second, if there is one. -/
def dropFraction? : Text → Option Text
  | '.' :: rest =>
    if rest.head?.any Char.isDigit then some (rest.dropWhile Char.isDigit) else none
  | t => some t

/-- The text after a time of day, if it starts with one. Seconds may be left out. -/
def dropTime? (t : Text) : Option Text := do
  let (hour, t) ← twoDigits? t
  let t ← Text.dropPrefix? [':'] t
  let (minute, t) ← twoDigits? t
  if 23 < hour ∨ 59 < minute then none
  else match t with
    | ':' :: t => do
      let (second, t) ← twoDigits? t
      if 60 < second then none else dropFraction? t
    | _ => some t

/-- Whether the text is the offset of a time zone. -/
def isOffset (t : Text) : Bool :=
  match t with
  | ['Z'] | ['z'] => true
  | sign :: rest =>
    (sign == '+' || sign == '-') &&
      match twoDigits? rest with
      | some (hour, ':' :: rest) =>
        match twoDigits? rest with
        | some (minute, []) => hour ≤ 23 && minute ≤ 59
        | _ => false
      | _ => false
  | [] => false

/-- A time, a date, or a date with a time and perhaps an offset. -/
def isDateTime (t : Text) : Bool :=
  match dropDate? t with
  | some [] => true
  | some (separator :: rest) =>
    (separator == 'T' || separator == 't' || separator == ' ') &&
      match dropTime? rest with
      | some after => after.isEmpty || isOffset after
      | none => false
  | none => dropTime? t == some []

/-- The value that a run of characters stands for. -/
def atomValue? (t : Text) : Option Value :=
  if t = "true".toList then some (.boolean true)
  else if t = "false".toList then some (.boolean false)
  else if isInteger t then some (.integer t)
  else if isFloat t then some (.float t)
  else if isDateTime t then some (.dateTime t)
  else none

/-- A value without quotes. A date may be followed by a blank and a time. -/
def readAtom : Reader Value := fun t =>
  let atom := t.takeWhile isAtomChar
  let rest := t.dropWhile isAtomChar
  match dropDate? atom, rest with
  | some [], ' ' :: c :: after =>
    if c.isDigit then
      let time := (c :: after).takeWhile isAtomChar
      (atomValue? (atom ++ [' '] ++ time)).map (·, (c :: after).dropWhile isAtomChar)
    else (atomValue? atom).map (·, rest)
  | _, _ => (atomValue? atom).map (·, rest)

end Typeahead.Toml
