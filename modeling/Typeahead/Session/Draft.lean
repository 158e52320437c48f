import Typeahead.Text.Lower
import Typeahead.Grammar.Basic

/-!
# A query being typed

A `Draft` is what has been typed: tokens already committed and the text that follows them. Reading
the text commits the tokens in front of it, and the last one too if nothing can be added to it. Each
pass takes tokens off the front of the text, so that what is left is a piece of it
(`pass_text_isInfix`), and `Draft.process` repeats passes until the text stays the same.
-/

namespace Typeahead

/-- The text after `start`, when it begins with `start` but for the case of its letters. -/
def Text.dropIgnoringCase? (start t : Text) : Option Text :=
  if start.length ≤ t.length ∧
      Text.lowerEach (t.take start.length) = Text.lowerEach start then
    some (t.drop start.length)
  else none

/-- Committed tokens and the text after them. -/
structure Draft where
  tokens : List Token := []
  text : Text := []

namespace Draft

/-- Moves a token from the front of the text to the committed ones. If the trimmed text does not
start with the token, nothing changes. -/
def shift (d : Draft) (token : Token) : Draft :=
  match token.spellings.findSome? (Text.dropIgnoringCase? · (Text.trim d.text)) with
  | some rest => ⟨d.tokens ++ [token], Text.trimStart rest⟩
  | none => d

/-- Whether the last token of a text is complete: the text ends blank, or the token is a single
character. -/
def isComplete (g : Grammar) (t : Text) (last : Token) : Bool :=
  (g.get? last.kind).any (·.single) || Text.endsBlank t

/-- One reading of the text. Every token but the last is shifted, the last one if it is complete or
`force` is set. -/
def pass (g : Grammar) (tokenize : Text → List Token) (force : Bool) (d : Draft) : Draft :=
  let tokens := tokenize d.text
  match tokens.getLast? with
  | none => d
  | some last =>
    let d' := tokens.dropLast.foldl shift d
    if force || isComplete g d.text last then d'.shift last else d'

theorem shift_text_isInfix (d : Draft) (token : Token) : (d.shift token).text <:+: d.text := by
  unfold shift
  split
  · next rest h =>
    obtain ⟨s, -, hs⟩ := List.exists_of_findSome?_eq_some h
    unfold Text.dropIgnoringCase? at hs
    split at hs
    · cases hs
      exact ((Text.trimStart_isSuffix _).trans (List.drop_suffix _ _)).isInfix.trans
        (Text.trim_isInfix _)
    · simp at hs
  · exact List.infix_rfl

theorem foldl_shift_text_isInfix (ts : List Token) (d : Draft) :
    (ts.foldl shift d).text <:+: d.text := by
  induction ts generalizing d with
  | nil => exact List.infix_rfl
  | cons t ts ih => exact (ih (d.shift t)).trans (shift_text_isInfix d t)

theorem pass_text_isInfix (g : Grammar) (tokenize : Text → List Token) (force : Bool)
    (d : Draft) : (d.pass g tokenize force).text <:+: d.text := by
  unfold pass
  simp only []
  split
  · exact List.infix_rfl
  · split
    · exact (shift_text_isInfix _ _).trans (foldl_shift_text_isInfix _ _)
    · exact foldl_shift_text_isInfix _ _

/-- Reads the text until it stays the same; only the first reading may `force` the last token. -/
def process (g : Grammar) (tokenize : Text → List Token) (force : Bool) (d : Draft) : Draft :=
  let d' := d.pass g tokenize force
  if _ : d'.text = d.text then d' else process g tokenize false d'
termination_by d.text.length
decreasing_by
  have hi := pass_text_isInfix g tokenize force d
  have hle := hi.length_le
  rcases Nat.lt_or_eq_of_le hle with hlt | heq
  · exact hlt
  · exact absurd (hi.eq_of_length heq) ‹_›

end Draft

end Typeahead
