import Typeahead.Proofs.Matching
import Typeahead.Proofs.Refusals

/-!
# What an error says of the tokens

Every reason for which a query is refused names a token, or the end of the query, and says something
of it that is so (`QueryError.Describes`, `Tree.error_describes`). A token that is refused is the
one just read. An operator whose operand has the wrong type is found through the construct that it
opened, and constructs remember where they stand (`Frame.StandsIn`). At the end of a query the group
that is named is the innermost open one, which is the last opener without a partner.

One message promises more than is meant. A closing parenthesis where an operand is wanted is
reported as one without a partner, even inside an open group (`Tree.unmatchedParen_in_open_group`).
Everywhere else the report is true (`Tree.unmatchedParen_cause`).
-/

namespace Typeahead

open Nesting

/-- An operand has to follow: behind an opening parenthesis, and behind an operator that wants one
on its right. -/
def Grammar.Demands (g : Grammar) (k : TokenKind) : Prop :=
  k = .openParen ∨ (g.get? k).any Rule.isPrefixOp = true ∨ (g.get? k).any Rule.isInfixOp = true

/-- What the error says of the tokens is so. -/
def QueryError.Describes (g : Grammar) (ts : List Token) : QueryError → Prop
  | unknownToken position value =>
    ∃ t, ts[position]? = some t ∧ t.kind = .unknown ∧ t.value = value
  | unexpectedToken position found =>
    ts[position]?.map Token.kind = some found ∧
      (found ≠ .unknown ∧ found ≠ .openParen ∧ found ≠ .closeParen) ∧
      ∀ rule, g.get? found = some rule → rule.isLeaf = false ∧ rule.isPrefixOp = false
  | emptyOperand after => ts.getLast?.map Token.kind = some after ∧ g.Demands after
  | typeMismatch position operator expected found =>
    ts[position]?.map Token.kind = some operator ∧
      (g.left? operator = some expected ∨ g.right? operator = some expected) ∧ expected ≠ found
  | unclosedParen position =>
    ts[position]?.map Token.kind = some .openParen ∧
      (unmatched ts).openers.head? = some position
  | unmatchedParen position => ts[position]?.map Token.kind = some .closeParen
  | trailingTokens position =>
    0 < position ∧ ∃ t, ts[position]? = some t ∧ t.kind ≠ .unknown ∧ t.kind ≠ .closeParen

section Frames

variable {g : Grammar} {frames : List Frame} {tree : Tree} {type : ValueType} {ts : List Token}
  {e : QueryError}

/-- The construct was opened by the token at its position, and waits for what that token wants. -/
def Frame.StandsIn (g : Grammar) (ts : List Token) : Frame → Prop
  | .group position => ts[position]?.map Token.kind = some .openParen
  | .prefixOp position operator wants _ | .infixOp position operator _ _ wants _ =>
    ts[position]? = some operator ∧ g.right? operator.kind = some wants

/-- The construct finds its operand to be of the wrong type. -/
def Frame.Refuses (e : QueryError) : Frame → Prop
  | .group _ => False
  | .prefixOp position operator wants _ | .infixOp position operator _ _ wants _ =>
    ∃ found, wants ≠ found ∧ e = .typeMismatch position operator.kind wants found

theorem Frame.exists_mem_cons (frame : Frame) (h : ∃ f ∈ frames, f.Refuses e) :
    ∃ f ∈ frame :: frames, f.Refuses e := by
  obtain ⟨f, hm, hf⟩ := h
  exact ⟨f, List.mem_cons_of_mem _ hm, hf⟩

theorem Frame.Refuses.refusedAt {frame : Frame} (h : frame.Refuses e) : e.refusedAt = none := by
  cases frame with
  | group => exact h.elim
  | prefixOp | infixOp =>
    obtain ⟨found, -, rfl⟩ := h
    rfl

theorem Frame.StandsIn.describes {frame : Frame} (h : frame.StandsIn g ts)
    (he : frame.Refuses e) : e.Describes g ts := by
  cases frame with
  | group => exact he.elim
  | prefixOp | infixOp =>
    obtain ⟨found, hne, rfl⟩ := he
    simp [QueryError.Describes, h.1, h.2, hne]

theorem Opened.standsIn (h : Opened g frames ts) :
    ∀ (us : List Token), ∀ frame ∈ frames, frame.StandsIn g (ts ++ us) := by
  induction h with
  | nil => simp
  | group _ hk ih =>
    intro us
    exact List.forall_mem_cons.2 ⟨by simp [Frame.StandsIn, hk], by simpa using ih (_ :: us)⟩
  | prefixOp _ _ hr _ ih =>
    intro us
    exact List.forall_mem_cons.2 ⟨by simp [Frame.StandsIn, hr], by simpa using ih (_ :: us)⟩
  | infixOp _ _ _ _ _ hr _ ih =>
    intro us
    exact List.forall_mem_cons.2 ⟨by simp [Frame.StandsIn, hr], by simpa using ih (_ ++ _ :: us)⟩

/-- Where an operand is wanted, the token before it demands one. -/
theorem Opened.demands (h : Opened g frames ts) :
    ts = [] ∨ ∃ t, ts.getLast? = some t ∧ g.Demands t.kind := by
  cases h with
  | nil => exact .inl rfl
  | group _ hk => exact .inr ⟨_, List.getLast?_concat, .inl hk⟩
  | prefixOp _ hl hr he =>
    refine .inr ⟨_, List.getLast?_concat, .inr (.inl ?_)⟩
    simp [Grammar.any_isPrefixOp, hl, hr, he]
  | infixOp _ _ _ _ hl hr he =>
    refine .inr ⟨_, List.getLast?_concat, .inr (.inr ?_)⟩
    simp [Grammar.any_isInfixOp, hl, hr, he]

theorem Tree.Yields.ne_nil (h : tree.Yields ts) : ts ≠ [] := by
  cases h <;> simp

theorem Holds.ne_nil (h : Holds g frames tree type ts) : ts ≠ [] := by
  obtain ⟨before, inner, rfl, -, hi⟩ := h
  simp [hi.yields.ne_nil]

end Frames

namespace Stage

variable {g : Grammar} {position : Nat} {token : Token} {frames : List Frame} {tree : Tree}
  {type : ValueType} {ts : List Token} {s : Stage} {e : QueryError}

theorem Sound.standsIn (h : s.Sound g ts) (us : List Token) :
    ∀ frame ∈ s.frames, frame.StandsIn g (ts ++ us) := by
  cases s with
  | awaiting frames => exact Opened.standsIn h us
  | holding frames tree type =>
    obtain ⟨⟨before, inner, rfl, ho, -⟩, -⟩ := h
    rw [List.append_assoc]
    exact ho.standsIn (inner ++ us)

theorem sound_of_readAll (h : (awaiting []).readAll g 0 ts = .ok s) : s.Sound g ts := by
  have hs : s.Sound g ([] ++ ts) := readAll_sound (s := awaiting []) ts Opened.nil h
  exact hs

theorem readOperand_describes (ht : ts[position]? = some token)
    (h : readOperand g position token frames = .error e) : e.Describes g ts := by
  unfold readOperand at h
  split at h
  · rename_i hk
    cases h
    exact ⟨token, ht, hk, rfl⟩
  · cases h
  · rename_i hk
    cases h
    simp [QueryError.Describes, ht, hk]
  · rename_i hunknown hopen hclose
    split at h
    · cases h
    · cases h
    · rename_i hfront hleaf
      cases h
      refine ⟨by simp [ht], ⟨hunknown, hopen, hclose⟩, ?_⟩
      -- A rule with a value and nothing on its left would have been read as an operand.
      rintro ⟨eval, left, right, reserved, single, lexeme⟩ hr
      rcases eval with _ | eval
      · exact ⟨rfl, rfl⟩
      rcases left with _ | left
      · rcases right with _ | wants
        · exact (hleaf _ _ _ _ hr).elim
        · exact (hfront _ _ _ _ _ hr).elim
      · exact ⟨rfl, rfl⟩

theorem strayError_describes (hp : 0 < position) (ht : ts[position]? = some token) :
    (strayError position token).Describes g ts := by
  unfold strayError
  split
  · rename_i hk
    exact ⟨token, ht, hk, rfl⟩
  · rename_i hk
    simp [QueryError.Describes, ht, hk]
  · rename_i hunknown hclose
    exact ⟨hp, token, ht, hunknown, hclose⟩

/-- A token is refused behind an operand because the operand is none for it, because a construct
that it closes has the wrong operand, or because it is a stray one. A closing parenthesis is stray
only if no group is open. -/
theorem readAfter_error : ∀ {frames : List Frame} {tree : Tree} {type : ValueType},
    readAfter g position token frames tree type = .error e →
      (∃ found left, g.left? token.kind = some left ∧ left ≠ found ∧
        e = .typeMismatch position token.kind left found) ∨
      (∃ frame ∈ frames, frame.Refuses e) ∨
      e = strayError position token ∧ (token.kind = .closeParen → Frame.groups frames = [])
  | frames, tree, type, h => by
    unfold readAfter at h
    split at h
    · rename_i c hc
      obtain ⟨hl, -, -⟩ := Grammar.continuation?_eq_some.1 (Option.filter_eq_some_iff.1 hc).1
      unfold readOperator at h
      split_ifs at h with hty
      · split at h <;> cases h
      · cases h
        exact .inl ⟨type, c.left, hl, hty, rfl⟩
    · split at h
      · cases h
        exact .inr (.inr ⟨rfl, fun _ => rfl⟩)
      · split_ifs at h with hk
        cases h
        exact .inr (.inr ⟨rfl, fun hc => absurd hc hk⟩)
      · split_ifs at h with hty
        · exact (readAfter_error h).imp_right (Or.imp_left (Frame.exists_mem_cons _))
        · cases h
          exact .inr (.inl ⟨_, List.mem_cons_self, type, hty, rfl⟩)
      · split_ifs at h with hty
        · exact (readAfter_error h).imp_right (Or.imp_left (Frame.exists_mem_cons _))
        · cases h
          exact .inr (.inl ⟨_, List.mem_cons_self, type, hty, rfl⟩)

theorem read_describes (hs : s.Sound g ts) (h : s.read g ts.length token = .error e)
    (us : List Token) : e.Describes g (ts ++ token :: us) := by
  have ht : (ts ++ token :: us)[ts.length]? = some token := by simp
  have hstands := hs.standsIn (token :: us)
  cases s with
  | awaiting frames => exact readOperand_describes ht h
  | holding frames tree type =>
    rcases readAfter_error h with ⟨found, left, hl, hne, rfl⟩ | ⟨frame, hm, hf⟩ | ⟨rfl, -⟩
    · simp [QueryError.Describes, hl, hne]
    · exact (hstands frame hm).describes hf
    · exact strayError_describes (List.length_pos_iff.2 hs.1.ne_nil) ht

/-- At the end the constructs are closed from the inside, up to the innermost group. -/
theorem closeAll_error : ∀ {frames : List Frame} {tree : Tree} {type : ValueType},
    closeAll frames tree type = .error e → (∃ frame ∈ frames, frame.Refuses e) ∨
      ∃ site, .group site ∈ frames ∧ (Frame.groups frames).head? = some site ∧
        e = .unclosedParen site
  | [], _, _, h => by cases h
  | .group site :: _, _, _, h => by
    cases h
    exact .inr ⟨site, List.mem_cons_self, rfl, rfl⟩
  | .prefixOp .. :: _, _, type, h => by
    unfold closeAll at h
    split_ifs at h with hty
    · refine (closeAll_error h).imp (Frame.exists_mem_cons _) ?_
      rintro ⟨site, hm, hsite⟩
      exact ⟨site, List.mem_cons_of_mem _ hm, hsite⟩
    · cases h
      exact .inl ⟨_, List.mem_cons_self, type, hty, rfl⟩
  | .infixOp .. :: _, _, type, h => by
    unfold closeAll at h
    split_ifs at h with hty
    · refine (closeAll_error h).imp (Frame.exists_mem_cons _) ?_
      rintro ⟨site, hm, hsite⟩
      exact ⟨site, List.mem_cons_of_mem _ hm, hsite⟩
    · cases h
      exact .inl ⟨_, List.mem_cons_self, type, hty, rfl⟩

theorem finish_describes (hs : s.Sound g ts) (hm : s.Matched ts) {last : Token}
    (hlast : ts.getLast? = some last) (h : s.finish last.kind = .error e) :
    e.Describes g ts := by
  cases s with
  | awaiting frames =>
    cases h
    rcases Opened.demands hs with rfl | ⟨t, ht, hd⟩
    · cases hlast
    · rw [hlast] at ht
      cases ht
      exact ⟨by simp [hlast], hd⟩
  | holding frames tree type =>
    have hstands := hs.standsIn []
    rw [List.append_nil] at hstands
    rcases closeAll_error h with ⟨frame, hframe, hf⟩ | ⟨site, hframe, hsite, rfl⟩
    · exact (hstands frame hframe).describes hf
    · refine ⟨hstands _ hframe, ?_⟩
      rw [hm]
      exact hsite

end Stage

namespace Tree

variable {g : Grammar} {ts : List Token} {e : QueryError} {p : Nat}

/-- Where parentheses want nothing on their left, every error tells the truth about the tokens it
points at. -/
theorem error_describes (hg : g.FreeParens) (h : ofTokens g ts = .error e) :
    e.Describes g ts := by
  rcases ofTokens_error h with hread | ⟨s, last, hread, hlast, hfinish⟩
  · obtain ⟨before, token, after, s, rfl, hbefore, herror⟩ := Stage.readAll_error hread
    rw [Nat.zero_add] at herror
    exact Stage.read_describes (Stage.sound_of_readAll hbefore) herror after
  · exact Stage.finish_describes (Stage.sound_of_readAll hread)
      (Stage.matched_of_readAll hg hread) hlast hfinish

/-- In `(a = 1) AND ((b = 2)` the group that is never closed is not the one opened last. -/
theorem error_describes_outer_group :
    let ts : List Token := [⟨.openParen, ['('], none⟩, ⟨.property, ['a'], none⟩,
      ⟨.equal, ['='], none⟩, ⟨.number, ['1'], none⟩, ⟨.closeParen, [')'], none⟩,
      ⟨.andOp, "AND".toList, none⟩, ⟨.openParen, ['('], none⟩, ⟨.openParen, ['('], none⟩,
      ⟨.property, ['b'], none⟩, ⟨.equal, ['='], none⟩, ⟨.number, ['2'], none⟩,
      ⟨.closeParen, [')'], none⟩]
    Grammar.standard.FreeParens ∧ ofTokens .standard ts = .error (.unclosedParen 6) ∧
      (QueryError.unclosedParen 6).Describes .standard ts := by
  intro ts
  have h : ofTokens .standard ts = .error (.unclosedParen 6) := by rfl
  exact ⟨Grammar.standard_freeParens, h, error_describes Grammar.standard_freeParens h⟩

/-- A closing parenthesis that is reported as one without a partner has none, unless an operand is
missing right before it. -/
theorem unmatchedParen_cause (hg : g.FreeParens) (h : ofTokens g ts = .error (.unmatchedParen p)) :
    ts[p]?.map Token.kind = some .closeParen ∧ ((unmatched (ts.take p)).openers = [] ∨
      ∃ t, (ts.take p).getLast? = some t ∧ g.Demands t.kind) := by
  rcases ofTokens_error h with hread | ⟨s, last, -, -, hfinish⟩
  · obtain ⟨before, token, after, s, rfl, hbefore, herror⟩ := Stage.readAll_error hread
    rw [Nat.zero_add] at herror
    obtain rfl : p = before.length := by
      rcases Stage.read_refusedAt herror with hat | hat <;> simp [QueryError.refusedAt] at hat
      exact hat
    have hs := Stage.sound_of_readAll hbefore
    have hclose := Stage.read_describes hs herror after
    refine ⟨hclose, ?_⟩
    rw [List.take_left]
    -- Only where an operand is wanted can the closer be refused with a group still open.
    cases s with
    | awaiting frames => exact hs.demands.imp_left fun hnil => by rw [hnil]; rfl
    | holding frames tree type =>
      left
      rcases Stage.readAfter_error herror with ⟨_, _, -, -, he⟩ | ⟨frame, -, hf⟩ | ⟨-, hgroups⟩
      · cases he
      · cases hf.refusedAt
      · rw [Stage.matched_of_readAll hg hbefore]
        exact hgroups (by simpa [QueryError.Describes] using hclose)
  · cases Stage.finish_refusedAt hfinish

/-- `(a) )`, where the second closing parenthesis has no partner. -/
theorem unmatchedParen_cause_second_closer :
    let ts : List Token := [⟨.openParen, ['('], none⟩, ⟨.property, ['a'], none⟩,
      ⟨.closeParen, [')'], none⟩, ⟨.closeParen, [')'], none⟩]
    Grammar.standard.FreeParens ∧ ofTokens .standard ts = .error (.unmatchedParen 3) ∧
      ts[3]?.map Token.kind = some .closeParen ∧ ((unmatched (ts.take 3)).openers = [] ∨
        ∃ t, (ts.take 3).getLast? = some t ∧ Grammar.standard.Demands t.kind) := by
  intro ts
  have h : ofTokens .standard ts = .error (.unmatchedParen 3) := by rfl
  exact ⟨Grammar.standard_freeParens, h, unmatchedParen_cause Grammar.standard_freeParens h⟩

/-- In `( )` the closing parenthesis is said to have no partner, while the group is open. -/
theorem unmatchedParen_in_open_group :
    let ts : List Token := [⟨.openParen, ['('], none⟩, ⟨.closeParen, [')'], none⟩]
    ofTokens .standard ts = .error (.unmatchedParen 1) ∧
      (unmatched (ts.take 1)).openers = [0] :=
  ⟨rfl, rfl⟩

end Tree

end Typeahead
