import Typeahead.Proofs.TreeSound

/-!
# Every stratified tree is read back

A well-typed, stratified tree is the tree of its own tokens (`Tree.ofTokens_iff`), if the grammar
leaves parentheses and unreadable text without a value. In some other grammar a parenthesis is also
an operator, and then it is read as one.

Reading the tokens of an operand does not end with the operand held whole: the constructs on its
right edge are still open, for the next token might continue them. But a token that the right edge
gives way to, or the end of the query, finds the same as if the operand were held whole (`Settles`).
-/

namespace Typeahead

/-- Parentheses only group, and what cannot be read has no value. -/
structure Grammar.PlainGroups (g : Grammar) : Prop where
  unknown : g.eval? .unknown = none
  openParen : g.eval? .openParen = none
  closeParen : g.eval? .closeParen = none

namespace Stage

variable {g : Grammar}

theorem readAll_append {rest : List Token} :
    ∀ (ts : List Token) {position : Nat} {s s' : Stage}, s.readAll g position ts = .ok s' →
      s.readAll g position (ts ++ rest) = s'.readAll g (position + ts.length) rest
  | [], position, s, s', h => by
    cases h
    rfl
  | token :: ts, position, s, s', h => by
    simp only [List.cons_append, readAll] at h ⊢
    split at h
    · rename_i next hn
      rw [readAll_append ts h, List.length_cons, Nat.add_right_comm, Nat.add_assoc]
    · cases h

theorem readAll_singleton {position : Nat} {token : Token} {s s' : Stage}
    (h : s.read g position token = .ok s') : s.readAll g position [token] = .ok s' := by
  simp [readAll, h]

/-- Where an operand is wanted, a kind that wants nothing on its left is a value or a prefix
operator. -/
theorem readOperand_of_eval (hg : g.PlainGroups) {position : Nat} {token : Token}
    {frames : List Frame} {gives : ValueType} (hl : g.left? token.kind = none)
    (he : g.eval? token.kind = some gives) :
    readOperand g position token frames = match g.right? token.kind with
      | some wants => .ok (.awaiting (.prefixOp position token wants gives :: frames))
      | none => .ok (.holding frames (.leaf token) gives) := by
  unfold readOperand
  split
  · rename_i hk
    rw [hk, hg.unknown] at he
    cases he
  · rename_i hk
    rw [hk, hg.openParen] at he
    cases he
  · rename_i hk
    rw [hk, hg.closeParen] at he
    cases he
  · obtain ⟨rule, hr, he⟩ := Option.bind_eq_some_iff.1 he
    simp only [Grammar.left?, Grammar.right?, hr, Option.bind_some] at hl ⊢
    rcases rule with ⟨e, l, r, _, _, _⟩
    simp only at he hl ⊢
    subst he hl
    cases r <;> rfl

variable {position site : Nat} {token operator : Token} {outer frames : List Frame}
  {tree left : Tree} {type wants gives : ValueType}

theorem readAfter_of_floor_le {c : Continuation} (hc : g.continuation? token.kind = some c)
    (hfloor : Frame.floor frames ≤ c.left.power) :
    readAfter g position token frames tree type =
      readOperator position token c frames tree type := by
  have hf : (g.continuation? token.kind).filter (Frame.floor frames ≤ ·.left.power) = some c := by
    rw [Option.filter_eq_some_iff]
    exact ⟨hc, by simpa using hfloor⟩
  unfold readAfter
  simp only [hf]

theorem filter_continuation_eq_none (frames : List Frame)
    (h : ∀ c, g.continuation? token.kind = some c → c.left.power < Frame.floor frames) :
    (g.continuation? token.kind).filter (Frame.floor frames ≤ ·.left.power) = none := by
  rw [Option.filter_eq_none_iff]
  intro c hc
  have := h c hc
  rw [decide_eq_true_eq]
  omega

theorem readAfter_close_group (hg : g.PlainGroups) (hk : token.kind = .closeParen) :
    readAfter g position token (.group site :: outer) tree type =
      .ok (.holding outer (.group tree) type) := by
  have hc : g.continuation? token.kind = none := by
    rw [hk, Grammar.continuation?_eq_none hg.closeParen]
  rw [readAfter, hc]
  simp only [Option.filter_none, hk, ↓reduceIte]

theorem readAfter_close_prefixOp
    (h : ∀ c, g.continuation? token.kind = some c → c.left.power ≤ wants.power) :
    readAfter g position token (.prefixOp site operator wants gives :: outer) tree wants =
      readAfter g position token outer (.prefixOp operator tree) gives := by
  have hf := filter_continuation_eq_none (.prefixOp site operator wants gives :: outer)
    fun c hc => Nat.lt_succ_of_le (h c hc)
  rw [readAfter, hf]
  simp only [↓reduceIte]

theorem readAfter_close_infixOp {power : Nat}
    (h : ∀ c, g.continuation? token.kind = some c → c.left.power ≤ power) :
    readAfter g position token (.infixOp site operator left power wants gives :: outer) tree wants =
      readAfter g position token outer (.infixOp operator left tree) gives := by
  have hf := filter_continuation_eq_none
    (.infixOp site operator left power wants gives :: outer)
    fun c hc => Nat.lt_succ_of_le (h c hc)
  rw [readAfter, hf]
  simp only [↓reduceIte]

end Stage

theorem Tree.leftAtLeast_zero {g : Grammar} : ∀ t : Tree, t.LeftAtLeast g 0
  | .leaf _ | .group _ | .prefixOp _ _ => trivial
  | .infixOp _ left _ => ⟨Nat.zero_le _, leftAtLeast_zero left⟩
  | .postfixOp _ operand => ⟨Nat.zero_le _, leftAtLeast_zero operand⟩

/-- Reading the tokens where an operand is wanted amounts to holding `tree` there: what can still be
closed inside it is closed by the next token that its right edge gives way to, and by the end. -/
def Settles (g : Grammar) (position : Nat) (frames : List Frame) (tree : Tree) (type : ValueType)
    (tokens : List Token) : Prop :=
  ∃ inner held heldType,
    (Stage.awaiting frames).readAll g position tokens = .ok (.holding inner held heldType) ∧
      (∀ next token,
        (∀ c, g.continuation? token.kind = some c → tree.RightAtLeast g c.left.power) →
        Stage.readAfter g next token inner held heldType =
          Stage.readAfter g next token frames tree type) ∧
      Stage.closeAll inner held heldType = Stage.closeAll frames tree type

namespace Settles

variable {g : Grammar} {position : Nat} {frames : List Frame} {tree left : Tree}
  {type wants gives : ValueType} {operator : Token} {tokens us : List Token}

/-- The next token after an operand is read as if the operand were held whole. -/
theorem read_next (h : Settles g position frames tree type tokens) {token : Token}
    (hright : ∀ c, g.continuation? token.kind = some c → tree.RightAtLeast g c.left.power)
    {s : Stage} (hs : Stage.readAfter g (position + tokens.length) token frames tree type = .ok s) :
    (Stage.awaiting frames).readAll g position (tokens ++ [token]) = .ok s := by
  obtain ⟨inner, held, heldType, hr, hnext, -⟩ := h
  rw [Stage.readAll_append _ hr]
  apply Stage.readAll_singleton
  rw [Stage.read, hnext _ _ hright, hs]

theorem prefixOp (hp : g.rightPower operator.kind = wants.power)
    (hr : (Stage.awaiting frames).read g position operator =
      .ok (.awaiting (.prefixOp position operator wants gives :: frames)))
    (h : Settles g (position + 1) (.prefixOp position operator wants gives :: frames) tree wants
      tokens) :
    Settles g position frames (.prefixOp operator tree) gives (operator :: tokens) := by
  obtain ⟨inner, held, heldType, hall, hnext, hclose⟩ := h
  refine ⟨inner, held, heldType, ?_, ?_, ?_⟩
  · simp only [Stage.readAll, hr, hall]
  · intro next token hright
    rw [hnext next token fun c hc => (hright c hc).2,
      Stage.readAfter_close_prefixOp fun c hc => hp ▸ (hright c hc).1]
  · rw [hclose]
    simp only [Stage.closeAll, ↓reduceIte]

theorem infixOp (hp : g.leftPower operator.kind = type.power)
    (hr : (Stage.awaiting frames).readAll g position (us ++ [operator]) =
      .ok (.awaiting (.infixOp (position + us.length) operator left type.power wants gives ::
        frames)))
    (h : Settles g (position + us.length + 1)
      (.infixOp (position + us.length) operator left type.power wants gives :: frames) tree wants
      tokens) :
    Settles g position frames (.infixOp operator left tree) gives (us ++ operator :: tokens) := by
  obtain ⟨inner, held, heldType, hall, hnext, hclose⟩ := h
  refine ⟨inner, held, heldType, ?_, ?_, ?_⟩
  · rw [List.append_cons, Stage.readAll_append _ hr, List.length_append, List.length_singleton,
      ← Nat.add_assoc, hall]
  · intro next token hright
    rw [hnext next token fun c hc => (hright c hc).2,
      Stage.readAfter_close_infixOp fun c hc => hp ▸ (hright c hc).1]
  · rw [hclose]
    simp only [Stage.closeAll, ↓reduceIte]

end Settles

/-- Every operand settles wherever its left edge is tight enough. -/
theorem Operand.settles {g : Grammar} (hg : g.PlainGroups) {tree : Tree} {tokens : List Token}
    (hy : tree.Yields tokens) : ∀ (frames : List Frame) {type : ValueType} (position : Nat),
      Operand g (Frame.floor frames) tree type tokens →
      Settles g position frames tree type tokens := by
  induction hy with
  | leaf token =>
    intro frames type position h
    have hk := h.typed
    simp only [Tree.WellTyped, Grammar.any_isLeaf, Bool.and_eq_true,
      Option.isNone_iff_eq_none] at hk
    refine ⟨frames, .leaf token, type, ?_, fun _ _ _ => rfl, rfl⟩
    apply Stage.readAll_singleton
    rw [Stage.read, Stage.readOperand_of_eval hg hk.1.2 h.type_eq, hk.2]
  | @group inner ts opening closing ho hc hy ih =>
    intro frames type position h
    have hi := ih (.group position :: frames) (position + 1)
      ⟨hy, h.typed, h.type_eq, h.stratified, Tree.leftAtLeast_zero inner⟩
    refine ⟨frames, .group inner, type, ?_, fun _ _ _ => rfl, rfl⟩
    have hr : (Stage.awaiting frames).read g position opening =
        .ok (.awaiting (.group position :: frames)) := by
      simp only [Stage.read, Stage.readOperand, ho]
    simp only [Stage.readAll, hr]
    refine hi.read_next (fun c hk => ?_) (Stage.readAfter_close_group hg hc)
    rw [hc, Grammar.continuation?_eq_none hg.closeParen] at hk
    cases hk
  | @prefixOp operand ts operator hy ih =>
    intro frames type position h
    obtain ⟨hk, htype, hty⟩ := h.typed
    simp only [Grammar.any_isPrefixOp, Bool.and_eq_true, Option.isNone_iff_eq_none,
      Option.isSome_iff_exists] at hk
    obtain ⟨⟨-, hl⟩, wants, hr⟩ := hk
    have hp : g.rightPower operator.kind = wants.power := by simp [Grammar.rightPower, hr]
    obtain ⟨hleft, hst⟩ := h.stratified
    rw [hp] at hleft
    refine .prefixOp hp ?_ (ih _ (position + 1) ⟨hy, hty, htype.trans hr, hst, hleft⟩)
    rw [Stage.read, Stage.readOperand_of_eval hg hl h.type_eq, hr]
  | @infixOp left right ls rs operator hyl hyr ihl ihr =>
    intro frames type position h
    obtain ⟨hk, htl, htr, hwl, hwr⟩ := h.typed
    simp only [Grammar.any_isInfixOp, Bool.and_eq_true, Option.isSome_iff_exists] at hk
    obtain ⟨⟨-, lt, hl⟩, wants, hr⟩ := hk
    have hp : g.leftPower operator.kind = lt.power := by simp [Grammar.leftPower, hl]
    obtain ⟨hright, hleft, hsl, hsr⟩ := h.stratified
    obtain ⟨hfloor, hll⟩ := h.left
    rw [hp] at hright hleft hfloor
    have hc : g.continuation? operator.kind = some ⟨lt, some wants, type⟩ :=
      Grammar.continuation?_eq_some.2 ⟨hl, hr, h.type_eq⟩
    refine .infixOp hp ?_ (ihr _ _ ⟨hyr, hwr, htr.trans hr, hsr, hleft⟩)
    refine (ihl frames position ⟨hyl, hwl, htl.trans hl, hsl, hll⟩).read_next (fun c hk => ?_) ?_
    · rw [hc] at hk
      cases hk
      exact hright
    · rw [Stage.readAfter_of_floor_le hc hfloor]
      simp only [Stage.readOperator, ↓reduceIte]
  | @postfixOp operand ts operator hy ih =>
    intro frames type position h
    obtain ⟨hk, htl, hwl⟩ := h.typed
    simp only [Grammar.any_isPostfixOp, Bool.and_eq_true, Option.isNone_iff_eq_none,
      Option.isSome_iff_exists] at hk
    obtain ⟨⟨-, lt, hl⟩, hr⟩ := hk
    have hp : g.leftPower operator.kind = lt.power := by simp [Grammar.leftPower, hl]
    obtain ⟨hright, hst⟩ := h.stratified
    obtain ⟨hfloor, hll⟩ := h.left
    rw [hp] at hright hfloor
    have hc : g.continuation? operator.kind = some ⟨lt, none, type⟩ :=
      Grammar.continuation?_eq_some.2 ⟨hl, hr, h.type_eq⟩
    refine ⟨frames, .postfixOp operator operand, type, ?_, fun _ _ _ => rfl, rfl⟩
    refine (ih frames position ⟨hy, hwl, htl.trans hl, hst, hll⟩).read_next (fun c hk => ?_) ?_
    · rw [hc] at hk
      cases hk
      exact hright
    · rw [Stage.readAfter_of_floor_le hc hfloor]
      simp only [Stage.readOperator, ↓reduceIte]

theorem Tree.WellTyped.exists_type {g : Grammar} :
    ∀ {t : Tree}, t.WellTyped g → ∃ v, t.type? g = some v
  | .group inner, h => exists_type (t := inner) h
  | .leaf token, h => by
    rw [WellTyped, Grammar.any_isLeaf, Bool.and_eq_true, Bool.and_eq_true] at h
    exact Option.isSome_iff_exists.1 h.1.1
  | .prefixOp operator operand, h => by
    rw [WellTyped, Grammar.any_isPrefixOp, Bool.and_eq_true, Bool.and_eq_true] at h
    exact Option.isSome_iff_exists.1 h.1.1.1
  | .infixOp operator left right, h => by
    rw [WellTyped, Grammar.any_isInfixOp, Bool.and_eq_true, Bool.and_eq_true] at h
    exact Option.isSome_iff_exists.1 h.1.1.1
  | .postfixOp operator operand, h => by
    rw [WellTyped, Grammar.any_isPostfixOp, Bool.and_eq_true, Bool.and_eq_true] at h
    exact Option.isSome_iff_exists.1 h.1.1.1

/-- Where parentheses only group, the tree of a query is the well-typed, stratified tree with the
query's tokens. -/
theorem Tree.ofTokens_iff {g : Grammar} (hg : g.PlainGroups) {tokens : List Token} {t : Tree} :
    ofTokens g tokens = .ok (some t) ↔ t.Yields tokens ∧ t.WellTyped g ∧ t.Stratified g := by
  constructor
  · intro h
    obtain ⟨v, ht⟩ := ofTokens_sound h
    exact ⟨ht.yields, ht.typed, ht.stratified⟩
  · rintro ⟨hy, hw, hs⟩
    obtain ⟨v, hv⟩ := hw.exists_type
    obtain ⟨inner, held, heldType, hr, -, hc⟩ :=
      Operand.settles hg hy [] 0 ⟨hy, hw, hv, hs, leftAtLeast_zero t⟩
    exact ofTokens_eq_some.2 ⟨inner, held, heldType, hr, hc⟩

end Typeahead
