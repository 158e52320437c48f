import Typeahead.Proofs.Nesting
import Typeahead.Proofs.TreeSound

/-!
# The groups a reader has open

A reader keeps a group open for each opener. Where parentheses want nothing on their left, so that
neither continues an operand, the open groups are the openers without a partner, and a closer
without one is never read (`Stage.read_matched`, `Stage.readAll_matched`).
-/

namespace Typeahead

/-- Neither parenthesis wants anything on its left. -/
structure Grammar.FreeParens (g : Grammar) : Prop where
  openParen : g.left? .openParen = none
  closeParen : g.left? .closeParen = none

theorem Grammar.FreeParens.ne_of_continuation? {g : Grammar} (hg : g.FreeParens) {k : TokenKind}
    {c : Continuation} (h : g.continuation? k = some c) : k ≠ .openParen ∧ k ≠ .closeParen := by
  have hl := (continuation?_eq_some.1 h).1
  constructor <;> rintro rfl
  · simp [hg.openParen] at hl
  · simp [hg.closeParen] at hl

theorem Grammar.standard_freeParens : standard.FreeParens := ⟨rfl, rfl⟩

/-- The positions of the open groups, innermost first. -/
def Frame.groups : List Frame → List Nat
  | [] => []
  | .group position :: outer => position :: groups outer
  | .prefixOp .. :: outer | .infixOp .. :: outer => groups outer

namespace Stage

/-- The constructs that are still open. -/
def frames : Stage → List Frame
  | awaiting frames | holding frames _ _ => frames

variable {g : Grammar} {tokens : List Token} {token : Token} {s s' : Stage}

open Nesting

/-- The open groups are the openers without a partner, and no closer is without one. -/
def Matched (s : Stage) (tokens : List Token) : Prop :=
  unmatched tokens = ⟨Frame.groups s.frames, []⟩

theorem readOperand_matched {frames : List Frame} (hu : (awaiting frames).Matched tokens)
    (h : readOperand g tokens.length token frames = .ok s) : s.Matched (tokens ++ [token]) := by
  have hu : unmatched tokens = ⟨Frame.groups frames, []⟩ := hu
  unfold readOperand at h
  split at h
  · cases h
  · rename_i hk
    cases h
    rw [Matched, unmatched_concat, hu, Unmatched.add_opener hk]
    rfl
  · cases h
  · rename_i hopen hclose
    rw [Matched, unmatched_concat, Unmatched.add_of_ne hopen hclose, hu]
    split at h <;> cases h <;> rfl

/-- The token is an operator, or it closes the innermost group once nothing else is open inside. -/
theorem readAfter_matched (hg : g.FreeParens) {position : Nat} :
    ∀ {frames : List Frame} {tree : Tree} {type : ValueType},
      unmatched tokens = ⟨Frame.groups frames, []⟩ →
      readAfter g position token frames tree type = .ok s → s.Matched (tokens ++ [token])
  | frames, tree, type, hu, h => by
    unfold readAfter at h
    split at h
    · rename_i c hc
      obtain ⟨hopen, hclose⟩ := hg.ne_of_continuation? (Option.filter_eq_some_iff.1 hc).1
      rw [Matched, unmatched_concat, Unmatched.add_of_ne hopen hclose, hu]
      unfold readOperator at h
      split_ifs at h
      split at h <;> cases h <;> rfl
    · split at h
      · cases h
      · split_ifs at h with hk
        cases h
        rw [Matched, unmatched_concat, hu, Frame.groups, Unmatched.add_closer hk]
        rfl
      -- An operator that is complete leaves the groups as they were, and the token is read again.
      · split_ifs at h
        rw [Frame.groups] at hu
        exact readAfter_matched hg hu h
      · split_ifs at h
        rw [Frame.groups] at hu
        exact readAfter_matched hg hu h

theorem read_matched (hg : g.FreeParens) (hu : s.Matched tokens)
    (h : s.read g tokens.length token = .ok s') : s'.Matched (tokens ++ [token]) := by
  cases s with
  | awaiting frames => exact readOperand_matched hu h
  | holding frames tree type => exact readAfter_matched hg hu h

theorem readAll_matched (hg : g.FreeParens) : ∀ (rest : List Token) {tokens : List Token}
    {s s' : Stage}, s.Matched tokens → s.readAll g tokens.length rest = .ok s' →
      s'.Matched (tokens ++ rest)
  | [], tokens, s, s', hu, h => by
    cases h
    simpa using hu
  | token :: rest, tokens, s, s', hu, h => by
    simp only [readAll] at h
    split at h
    · rename_i next hn
      have := readAll_matched hg rest (read_matched hg hu hn) (by simpa using h)
      simpa using this
    · cases h

theorem matched_of_readAll (hg : g.FreeParens)
    (h : (awaiting []).readAll g 0 tokens = .ok s) : s.Matched tokens := by
  have hs : s.Matched ([] ++ tokens) := readAll_matched hg (s := awaiting []) tokens rfl h
  exact hs

end Stage

end Typeahead
