import Typeahead.Proofs.Reading

/-!
# Looking ahead for the end of a text

The scanner finishes a token with the last character of the text, and not only when the text is used
up. At the last character it does at once what would be done after it (`Token.scanChar_last`), so
the tokens are those of a scanner that does not look ahead.

Such a scanner is in one state after each character: some tokens are finished and one may be
pending. A character is added to what the state holds, or it is left out as a delimiter or as one
that belongs to no token; none is added twice (`Token.held_scanChar`, `Token.held_reading`). All
this is so in every grammar (`Token.scan_reads_once`).
-/

namespace Typeahead

namespace Token

open scoped List

variable {g : Grammar}

/-- The characters in the tokens that are finished and in the one that is pending. -/
def held (s : List Token × Option Pending) : Text :=
  s.1.flatMap (·.value) ++ s.2.elim [] (·.value)

theorem held_scanFresh (c : Char) : held (scanFresh g c false) <+ [c] := by
  unfold scanFresh Pending.start?
  rcases g.starting? c with _ | ⟨kind, lexeme, single⟩
  · simp [held]
  · rcases hd : lexeme.delimiter with _ | _ | close <;> cases single <;>
      simp [held, hd, Pending.token]

theorem held_scanChar (pending : Option Pending) (c : Char) :
    held (scanChar g pending c false) <+ held ([], pending) ++ [c] := by
  rcases pending with _ | p
  · exact held_scanFresh c
  · simp only [scanChar, Bool.false_eq_true, if_false]
    split_ifs
    · -- A closing delimiter ends the token and is no part of it.
      simp [held, Pending.token]
    · have hfresh := (held_scanFresh (g := g) c).append_left p.value
      simpa [held, Pending.token] using hfresh
    · simp [held, Pending.push]

theorem held_reading : ∀ (t : Text) (pending : Option Pending),
    held (reading g pending t) <+ held ([], pending) ++ t
  | [], pending => by simp [reading]
  | c :: t, pending => by
    have hchar := (held_scanChar (g := g) pending c).append_right t
    have hrest := (held_reading t (scanChar g pending c false).2).append_left
      ((scanChar g pending c false).1.flatMap (·.value))
    refine List.Sublist.trans ?_ (List.Sublist.trans hrest ?_)
    · simp [reading, held]
    · simpa [held] using hchar

theorem flatMap_value_scan (t : Text) : (scan g t).flatMap (·.value) = held (reading g none t) := by
  rw [scan_eq, held, List.flatMap_append]
  congr 1
  rcases (reading g none t).2 with _ | p <;> simp [Pending.token]

/-- Whatever the grammar, the tokens of a text are the same if the last one is only finished when the
text is used up, and their values are characters of the text, each used once at most, in order. -/
theorem scan_reads_once (g : Grammar) (t : Text) :
    scan g t = scanPlain g t ∧ (scan g t).flatMap (·.value) <+ t := by
  refine ⟨scanFrom_eq_scanPlainFrom t none, ?_⟩
  rw [flatMap_value_scan]
  simpa [held] using held_reading (g := g) t none

end Token

end Typeahead
