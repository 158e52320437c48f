import Typeahead.Proofs.TreeComplete

/-!
# Refusals that are final

A query is refused either while a token is read (`Stage.readAll_error`) or at its end. What is said
of a stray or unreadable token names the token just read (`Stage.read_refusedAt`), and the end of a
query brings up other faults only: a missing operand, an open group, a type
(`Stage.finish_refusedAt`). So the tokens up to the named one decide such a refusal, and nothing
that follows them makes a query (`Tree.refusal_final`).

A fault of type is different. It may name an operator far back, and is found only when the operand
ends, which the next token decides.
-/

namespace Typeahead

/-- Where a token stands that cannot be read, or cannot stand there whatever its type. -/
def QueryError.refusedAt : QueryError → Option Nat
  | unknownToken position _ | unexpectedToken position _ | unmatchedParen position
  | trailingTokens position => some position
  | emptyOperand _ | typeMismatch .. | unclosedParen _ => none

namespace Stage

variable {g : Grammar} {position : Nat} {token : Token} {e : QueryError}

theorem strayError_refusedAt (position : Nat) (token : Token) :
    (strayError position token).refusedAt = some position := by
  unfold strayError
  split <;> rfl

theorem readOperand_refusedAt {frames : List Frame}
    (h : readOperand g position token frames = .error e) : e.refusedAt = some position := by
  unfold readOperand at h
  split at h
  · cases h
    rfl
  · cases h
  · cases h
    rfl
  · split at h <;> cases h
    rfl

theorem readOperator_refusedAt {c : Continuation} {frames : List Frame} {tree : Tree}
    {type : ValueType} (h : readOperator position token c frames tree type = .error e) :
    e.refusedAt = none := by
  unfold readOperator at h
  split at h
  · split at h <;> cases h
  · cases h
    rfl

/-- Constructs are closed from the inside, until one of them refuses the token or its operand. -/
theorem readAfter_refusedAt : ∀ {frames : List Frame} {tree : Tree} {type : ValueType},
    readAfter g position token frames tree type = .error e →
      e.refusedAt = none ∨ e.refusedAt = some position
  | frames, tree, type, h => by
    unfold readAfter at h
    split at h
    · exact .inl (readOperator_refusedAt h)
    · split at h
      · cases h
        exact .inr (strayError_refusedAt position token)
      · split at h <;> cases h
        exact .inr (strayError_refusedAt position token)
      · split at h
        · exact readAfter_refusedAt h
        · cases h
          exact .inl rfl
      · split at h
        · exact readAfter_refusedAt h
        · cases h
          exact .inl rfl

theorem read_refusedAt {s : Stage} (h : s.read g position token = .error e) :
    e.refusedAt = none ∨ e.refusedAt = some position := by
  cases s with
  | awaiting frames => exact .inr (readOperand_refusedAt h)
  | holding frames tree type => exact readAfter_refusedAt h

/-- Reading fails at some token after all tokens before it have been read. -/
theorem readAll_error : ∀ {ts : List Token} {s : Stage} {position : Nat},
    s.readAll g position ts = .error e →
    ∃ before token after s', ts = before ++ token :: after ∧
      s.readAll g position before = .ok s' ∧ s'.read g (position + before.length) token = .error e
  | [], s, position, h => by cases h
  | token :: ts, s, position, h => by
    simp only [readAll] at h
    split at h
    · rename_i next hnext
      obtain ⟨before, token', after, s', rfl, hbefore, hread⟩ := readAll_error h
      refine ⟨token :: before, token', after, s', rfl, ?_, ?_⟩
      · simp only [readAll, hnext, hbefore]
      · rwa [List.length_cons, Nat.add_comm before.length, ← Nat.add_assoc]
    · rename_i hread
      cases h
      exact ⟨[], token, ts, s, rfl, rfl, hread⟩

theorem closeAll_refusedAt : ∀ {frames : List Frame} {tree : Tree} {type : ValueType},
    closeAll frames tree type = .error e → e.refusedAt = none
  | [], _, _, h => by cases h
  | .group _ :: _, _, _, h => by
    cases h
    rfl
  | .prefixOp .. :: _, _, _, h => by
    unfold closeAll at h
    split at h
    · exact closeAll_refusedAt h
    · cases h
      rfl
  | .infixOp .. :: _, _, _, h => by
    unfold closeAll at h
    split at h
    · exact closeAll_refusedAt h
    · cases h
      rfl

theorem finish_refusedAt {last : TokenKind} {s : Stage} (h : s.finish last = .error e) :
    e.refusedAt = none := by
  cases s with
  | awaiting frames =>
    cases h
    rfl
  | holding frames tree type => exact closeAll_refusedAt h

end Stage

namespace Tree

variable {g : Grammar} {ts : List Token} {e : QueryError} {p : Nat}

theorem ofTokens_error (h : ofTokens g ts = .error e) :
    (Stage.awaiting []).readAll g 0 ts = .error e ∨
      ∃ s last, (Stage.awaiting []).readAll g 0 ts = .ok s ∧ ts.getLast? = some last ∧
        s.finish last.kind = .error e := by
  unfold ofTokens at h
  split at h
  · cases h
  · rename_i last hlast
    split at h
    · rename_i s hs
      rcases hfinish : s.finish last.kind with e' | tree <;> rw [hfinish] at h <;> cases h
      exact .inr ⟨s, last, hs, hlast, hfinish⟩
    · rename_i hread
      cases h
      exact .inl hread

theorem ofTokens_of_readAll (h : (Stage.awaiting []).readAll g 0 ts = .error e) :
    ofTokens g ts = .error e := by
  unfold ofTokens
  split
  · rename_i hlast
    rw [List.getLast?_eq_none_iff.1 hlast] at h
    cases h
  · rw [h]

/-- A token that is refused for other reasons than types is refused after the same tokens whatever
follows, so that no query begins with them. -/
theorem refusal_final (h : ofTokens g ts = .error e) (hp : e.refusedAt = some p) :
    p < ts.length ∧ (∀ ts', ts'.take (p + 1) = ts.take (p + 1) → ofTokens g ts' = .error e) ∧
      ∀ rest, ofTokens g (ts.take (p + 1) ++ rest) = .error e := by
  obtain hread | ⟨s, last, -, -, hfinish⟩ := ofTokens_error h
  · obtain ⟨before, token, after, s, rfl, hbefore, hread⟩ := Stage.readAll_error hread
    obtain rfl : p = before.length := by
      rcases Stage.read_refusedAt hread with hnone | hat
      · rw [hnone] at hp
        cases hp
      · rw [hat, Nat.zero_add] at hp
        exact (Option.some.inj hp).symm
    have htake : (before ++ token :: after).take (before.length + 1) = before ++ [token] := by
      rw [List.take_length_add_append, List.take_succ_cons, List.take_zero]
    have hfinal : ∀ rest, ofTokens g (before ++ [token] ++ rest) = .error e := by
      intro rest
      apply ofTokens_of_readAll
      rw [List.append_assoc, Stage.readAll_append before hbefore, List.singleton_append,
        Stage.readAll, hread]
    refine ⟨by simp, fun ts' hts' => ?_, fun rest => ?_⟩
    · rw [← List.take_append_drop (before.length + 1) ts', hts', htake]
      exact hfinal _
    · rw [htake]
      exact hfinal rest
  · rw [Stage.finish_refusedAt hfinish] at hp
    cases hp

/-- `NOT (a = b c)`, where the closing parenthesis comes too late. -/
theorem refusal_final_in_group :
    let ts : List Token := [⟨.notOp, "NOT".toList, none⟩, ⟨.openParen, ['('], none⟩,
      ⟨.property, ['a'], none⟩, ⟨.equal, ['='], none⟩, ⟨.property, ['b'], none⟩,
      ⟨.property, ['c'], none⟩, ⟨.closeParen, [')'], none⟩]
    ofTokens .standard ts = .error (.trailingTokens 5) ∧
      (QueryError.trailingTokens 5).refusedAt = some 5 ∧ 5 < ts.length ∧
      (∀ ts', ts'.take 6 = ts.take 6 → ofTokens .standard ts' = .error (.trailingTokens 5)) ∧
      ∀ rest, ofTokens .standard (ts.take 6 ++ rest) = .error (.trailingTokens 5) := by
  intro ts
  have h : ofTokens .standard ts = .error (.trailingTokens 5) := by rfl
  exact ⟨h, rfl, refusal_final h rfl⟩

end Tree

end Typeahead
