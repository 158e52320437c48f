/-!
# Text

A text is a list of characters, so that everything said about what is typed, read or printed is
said about lists. Blank characters are those of the Unicode property `White_Space`; trimming
removes them from the ends, which `trimStart_isSuffix`, `trimEnd_isPrefix` and `trim_isInfix` state
as facts about pieces of a list.
-/

namespace Typeahead

/-- Whatever is typed, named or read, character by character. -/
abbrev Text := List Char

/-- A set of characters, as ranges of code points with both ends included. -/
abbrev CodeRanges := List (Nat × Nat)

/-- Membership of a character in a set of ranges. -/
def CodeRanges.has (ranges : CodeRanges) (c : Char) : Bool :=
  ranges.any fun r => r.1 ≤ c.toNat && c.toNat ≤ r.2

namespace Text

/-- The characters of the Unicode property `White_Space`. -/
def blankRanges : CodeRanges :=
  [(0x09, 0x0d), (0x20, 0x20), (0x85, 0x85), (0xa0, 0xa0), (0x1680, 0x1680), (0x2000, 0x200a),
    (0x2028, 0x2029), (0x202f, 0x202f), (0x205f, 0x205f), (0x3000, 0x3000)]

/-- A blank character separates words and is trimmed from the ends of a text. -/
def isBlank (c : Char) : Bool := blankRanges.has c

/-- The text without its leading blanks. -/
def trimStart (t : Text) : Text := t.dropWhile isBlank

/-- The text without its trailing blanks. -/
def trimEnd (t : Text) : Text := (t.reverse.dropWhile isBlank).reverse

/-- The text without blanks at either end. -/
def trim (t : Text) : Text := trimEnd (trimStart t)

/-- A text whose last character is blank; the empty text has none. -/
def endsBlank (t : Text) : Bool := t.getLast?.any isBlank

theorem trimStart_isSuffix (t : Text) : trimStart t <:+ t := List.dropWhile_suffix _

theorem trimEnd_isPrefix (t : Text) : trimEnd t <+: t := by
  have h := List.dropWhile_suffix isBlank (l := t.reverse)
  rw [← List.reverse_prefix] at h
  simpa [trimEnd] using h

theorem trim_isInfix (t : Text) : trim t <:+: t :=
  (trimEnd_isPrefix _).isInfix.trans (trimStart_isSuffix t).isInfix

/-- The pieces of a text between the occurrences of a separator; there is always a first one. -/
def splitOn (sep : Char) : Text → List Text
  | [] => [[]]
  | c :: rest =>
    if c = sep then [] :: splitOn sep rest
    else match splitOn sep rest with
      | [] => [[c]]
      | piece :: pieces => (c :: piece) :: pieces

/-- Pieces put together with a separator between neighbours. -/
def join (sep : Text) : List Text → Text
  | [] => []
  | [t] => t
  | t :: rest => t ++ sep ++ join sep rest

/-- The text after `start`, when it begins with `start`. -/
def dropPrefix? : (start t : Text) → Option Text
  | [], t => some t
  | _ :: _, [] => none
  | s :: start, c :: t => if s = c then dropPrefix? start t else none

/-- Whether `t` begins with `start`. -/
def startsWith (t start : Text) : Bool := (dropPrefix? start t).isSome

/-- The place of the first occurrence of `piece` in `t`. -/
def find? (piece : Text) : Text → Option Nat
  | [] => if piece = [] then some 0 else none
  | c :: rest =>
    if startsWith (c :: rest) piece then some 0 else (find? piece rest).map (· + 1)

end Text

end Typeahead
