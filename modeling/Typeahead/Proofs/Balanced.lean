import Typeahead.Proofs.Matching
import Typeahead.Query.Position
import Typeahead.Session.Snapshot

/-!
# Complete queries are balanced

A reader that ends with a tree has no group left open, so every parenthesis of a complete query has
its partner (`Tree.unmatched_of_isOk`). The sum of weights, the backward walk and the text of the
whole query then have nothing to close.

What may come next depends on the last token, which is a value, an operator behind its operand or a
closing parenthesis (`Tree.Yields.exists_last`). None of them leads to a slot for a closing
parenthesis, unless the grammar gives that kind a value of its own, which puts it among the kinds
that start a condition (`Tree.isOk_balanced`, `Tree.closeParen_predicted_as_operator`).
-/

namespace Typeahead

open Nesting

theorem Stage.groups_of_closeAll : ∀ {frames : List Frame} {tree t : Tree} {type : ValueType},
    closeAll frames tree type = .ok t → Frame.groups frames = []
  | [], _, _, _, _ => rfl
  | .group _ :: _, _, _, _, h => by cases h
  | .prefixOp .. :: _, _, _, _, h => by
    unfold closeAll at h
    split_ifs at h
    rw [Frame.groups]
    exact groups_of_closeAll h
  | .infixOp .. :: _, _, _, _, h => by
    unfold closeAll at h
    split_ifs at h
    rw [Frame.groups]
    exact groups_of_closeAll h

namespace Tree

variable {g : Grammar} {ts : List Token} {t : Tree}

theorem unmatched_of_isOk (hg : g.FreeParens) (h : (ofTokens g ts).isOk = true) :
    unmatched ts = ⟨[], []⟩ := by
  rcases isOk_ofTokens.1 h with rfl | ⟨t, ht⟩
  · rfl
  · obtain ⟨frames, tree, type, hr, hc⟩ := ofTokens_eq_some.1 ht
    rw [Stage.matched_of_readAll hg hr, Stage.frames, Stage.groups_of_closeAll hc]

/-- The last token closes a group, or it is a value or stands behind its operand. -/
theorem Yields.exists_last (hy : t.Yields ts) : t.WellTyped g →
    ∃ last, ts.getLast? = some last ∧ (last.kind = .closeParen ∨
      (g.eval? last.kind).isSome = true ∧ g.right? last.kind = none) := by
  induction hy with
  | leaf token =>
    intro h
    simp only [WellTyped, Grammar.any_isLeaf, Bool.and_eq_true, Option.isNone_iff_eq_none] at h
    exact ⟨token, rfl, .inr ⟨h.1.1, h.2⟩⟩
  | @group _ ts _ closing _ hc _ _ =>
    intro _
    exact ⟨closing, by simp [List.getLast?_cons], .inl hc⟩
  | prefixOp _ _ ih =>
    intro h
    obtain ⟨last, hlast, hk⟩ := ih h.2.2
    exact ⟨last, by simp [List.getLast?_cons, hlast], hk⟩
  | infixOp _ _ _ _ ih =>
    intro h
    obtain ⟨last, hlast, hk⟩ := ih h.2.2.2.2
    exact ⟨last, by simp [List.getLast?_append, List.getLast?_cons, hlast], hk⟩
  | postfixOp operator _ _ =>
    intro h
    simp only [WellTyped, Grammar.any_isPostfixOp, Bool.and_eq_true,
      Option.isNone_iff_eq_none] at h
    exact ⟨operator, List.getLast?_concat, .inr ⟨h.1.1.1, h.1.2⟩⟩

end Tree

namespace Position

variable {g : Grammar} {k : TokenKind}

theorem mem_kindsWhere {keep : TokenKind → Rule → Bool} :
    k ∈ kindsWhere g keep ↔ ∃ r, g.get? k = some r ∧ keep k r = true := by
  simp only [kindsWhere, List.mem_map, List.mem_filter]
  constructor
  · rintro ⟨⟨k, r⟩, ⟨hm, hk⟩, rfl⟩
    exact ⟨r, OrderedMap.get?_eq_some_of_mem hm, hk⟩
  · rintro ⟨r, hr, hk⟩
    exact ⟨(k, r), ⟨OrderedMap.mem_entries_of_get? hr, hk⟩, rfl⟩

/-- Outside groups a closing parenthesis may come only as a kind with a value. -/
theorem closeParen_mem_predict (hl : g.left? .closeParen = none) (p : Position) :
    .closeParen ∈ p.predict g false ↔
      p = .beginning ∧ g.eval? .closeParen = some .boolean ∨
        p = .ending ∧ g.eval? .closeParen = some .primitive := by
  rcases hr : g.get? .closeParen with _ | r
  · cases p <;> simp [predict, mem_kindsWhere, Grammar.eval?, hr]
  · rw [Grammar.left?, hr, Option.bind_some] at hl
    cases p <;> simp [predict, mem_kindsWhere, Grammar.eval?, hr, hl]

/-- Behind a value, or behind an operator that stands behind its operand, nothing begins. -/
theorem ofLast_of_complete {last : Token} (ho : last.kind ≠ .openParen)
    (he : (g.eval? last.kind).isSome = true) (hr : g.right? last.kind = none) :
    ∃ p, ofLast g (some last) = .ok p ∧ p ≠ .beginning ∧ p ≠ .ending := by
  obtain ⟨v, he⟩ := Option.isSome_iff_exists.1 he
  obtain ⟨r, hrule, he⟩ := Option.bind_eq_some_iff.1 he
  rw [Grammar.right?, hrule, Option.bind_some] at hr
  simp only [ofLast, Option.map_some]
  split
  · contradiction
  · exact ⟨.unknown, rfl, by simp⟩
  · rename_i hk
    exact absurd (Option.some.inj hk) ho
  · rename_i kind _ _ hk
    cases hk
    simp only [hrule, afterRule, he, hr]
    by_cases hp : last.kind = .property
    · exact ⟨.middle, by simp [hp], by simp⟩
    · cases v <;> exact ⟨.after, by simp [hp], by simp⟩

theorem ofLast_of_closeParen {last : Token} (hk : last.kind = .closeParen) :
    ∃ p, ofLast g (some last) = .ok p ∧
      (p = .beginning ↔ g.eval? .closeParen = some .boolean ∧ g.right? .closeParen = some .boolean) ∧
      (p = .ending → g.eval? .closeParen = some .boolean) := by
  simp only [ofLast, Option.map_some, hk, Grammar.eval?, Grammar.right?]
  rcases g.get? .closeParen with _ | ⟨eval, left, right, _, _, _⟩
  · exact ⟨.after, rfl, by simp⟩
  · rcases eval with _ | _ | _ <;> rcases right with _ | _ | _ <;> simp [afterRule]

theorem predict_of_complete (hl : g.left? .closeParen = none) {last : Token}
    (ho : last.kind ≠ .openParen) (he : (g.eval? last.kind).isSome = true)
    (hr : g.right? last.kind = none) :
    ∃ p, ofLast g (some last) = .ok p ∧ .closeParen ∉ p.predict g false := by
  obtain ⟨p, hp, hbeginning, hending⟩ := ofLast_of_complete ho he hr
  refine ⟨p, hp, ?_⟩
  rw [closeParen_mem_predict hl]
  simp [hbeginning, hending]

theorem predict_of_closeParen (hl : g.left? .closeParen = none) {last : Token}
    (hk : last.kind = .closeParen) : ∃ p, ofLast g (some last) = .ok p ∧
      (.closeParen ∈ p.predict g false ↔
        g.eval? .closeParen = some .boolean ∧ g.right? .closeParen = some .boolean) := by
  obtain ⟨p, hp, hbeginning, hending⟩ := ofLast_of_closeParen hk
  refine ⟨p, hp, ?_⟩
  rw [closeParen_mem_predict hl, hbeginning]
  constructor
  · rintro (⟨h, -⟩ | ⟨hp, he⟩)
    · exact h
    · rw [hending hp] at he
      cases he
  · intro h
    exact .inl ⟨h, h.1⟩

end Position

namespace Tree

variable {g : Grammar} {ts : List Token}

theorem last_ne_openParen (hu : unmatched ts = ⟨[], []⟩) {last : Token}
    (hl : ts.getLast? = some last) : last.kind ≠ .openParen := by
  intro hk
  obtain ⟨init, rfl⟩ := List.getLast?_eq_some_iff.1 hl
  rw [unmatched_concat] at hu
  rcases unmatched init with ⟨openers, closers⟩
  simp [Unmatched.add_opener hk] at hu

/-- A closing parenthesis may follow a complete query only where its kind begins a condition: at the
start, or behind another one that wants a condition on its right. -/
theorem predictNext_of_isOk (hg : g.FreeParens) (h : (ofTokens g ts).isOk = true)
    (hi : endsInside ts = false) : ∃ kinds, predictNext g ts = .ok kinds ∧
      (.closeParen ∈ kinds ↔ g.eval? .closeParen = some .boolean ∧ (ts = [] ∨
        g.right? .closeParen = some .boolean ∧
          ts.getLast?.map Token.kind = some .closeParen)) := by
  have hu := unmatched_of_isOk hg h
  rcases isOk_ofTokens.1 h with rfl | ⟨t, ht⟩
  · refine ⟨Position.predict g false .beginning, rfl, ?_⟩
    rw [Position.closeParen_mem_predict hg.closeParen]
    simp
  · obtain ⟨v, hop⟩ := ofTokens_sound ht
    obtain ⟨last, hl, hk⟩ := hop.yields.exists_last hop.typed
    have hnil : ts ≠ [] := by
      rintro rfl
      cases hl
    have hpredict : ∀ {p}, Position.ofLast g (some last) = .ok p →
        predictNext g ts = .ok (p.predict g false) := by
      intro p hp
      rw [predictNext, hl, hp, hi]
      rfl
    rcases hk with hk | ⟨he, hr⟩
    · obtain ⟨p, hp, hmem⟩ := Position.predict_of_closeParen (g := g) hg.closeParen hk
      exact ⟨_, hpredict hp, by simp [hmem, hnil, hl, hk]⟩
    · obtain ⟨p, hp, hmem⟩ :=
        Position.predict_of_complete hg.closeParen (last_ne_openParen hu hl) he hr
      refine ⟨_, hpredict hp, iff_of_false hmem ?_⟩
      rintro ⟨-, h | ⟨hright, hlast⟩⟩
      · exact hnil h
      · rw [hl, Option.map_some, Option.some.injEq] at hlast
        rw [hlast, hright] at hr
        cases hr

/-- Where parentheses want nothing on their left, a complete query opens every group before it
closes it and leaves none open. Neither count finds a group to close, the text of the whole query
gets no closer, and none is predicted, unless by a grammar that makes the closing parenthesis begin
a condition. -/
theorem isOk_balanced (hg : g.FreeParens) (h : (ofTokens g ts).isOk = true) :
    (∀ before, before <+: ts →
      before.countP (·.kind = .closeParen) ≤ before.countP (·.kind = .openParen)) ∧
    openCount ts = 0 ∧ endsInside ts = false ∧
    (∀ t, fullText ts t (openCount ts) =
      Text.join [' '] (ts.map Token.literal ++ if t.isEmpty then [] else [t])) ∧
    ∃ kinds, predictNext g ts = .ok kinds ∧
      (.closeParen ∈ kinds ↔ g.eval? .closeParen = some .boolean ∧ (ts = [] ∨
        g.right? .closeParen = some .boolean ∧
          ts.getLast?.map Token.kind = some .closeParen)) := by
  have hu := unmatched_of_isOk hg h
  have hnested : Nested ts := nested_of_closers_eq_nil ts (by rw [hu])
  have hbalance : balance ts = 0 := by
    rw [balance_eq_excess, hu]
    rfl
  have hopen : openCount ts = 0 := by
    rw [openCount, hbalance]
    rfl
  have hinside : endsInside ts = false := by
    rw [endsInside_of_nested hnested, hbalance]
    rfl
  refine ⟨fun before hp => hnested.countP_le hp, hopen, hinside, fun t => ?_,
    predictNext_of_isOk hg h hinside⟩
  simp [fullText, hopen]

/-- `NOT (a = 1)`. -/
theorem isOk_balanced_negation :
    let g := Grammar.standard
    let ts : List Token := [⟨.notOp, "NOT".toList, none⟩, ⟨.openParen, ['('], none⟩,
      ⟨.property, ['a'], none⟩, ⟨.equal, ['='], none⟩, ⟨.number, ['1'], none⟩,
      ⟨.closeParen, [')'], none⟩]
    g.FreeParens ∧ (ofTokens g ts).isOk = true ∧
      (∀ before, before <+: ts →
        before.countP (·.kind = .closeParen) ≤ before.countP (·.kind = .openParen)) ∧
      openCount ts = 0 ∧ endsInside ts = false ∧
      (∀ t, fullText ts t (openCount ts) =
        Text.join [' '] (ts.map Token.literal ++ if t.isEmpty then [] else [t])) ∧
      ∃ kinds, predictNext g ts = .ok kinds ∧
        (.closeParen ∈ kinds ↔ g.eval? .closeParen = some .boolean ∧ (ts = [] ∨
          g.right? .closeParen = some .boolean ∧
            ts.getLast?.map Token.kind = some .closeParen)) :=
  ⟨Grammar.standard_freeParens, rfl, isOk_balanced Grammar.standard_freeParens rfl⟩

/-- Where the closing parenthesis is also described as an operator with a condition on its right,
it is predicted behind the complete query `(a)`. -/
theorem closeParen_predicted_as_operator :
    let g : Grammar := OrderedMap.ofList [(.property, Grammar.standardRule .property),
      (.openParen, Grammar.standardRule .openParen),
      (.closeParen, { Grammar.standardRule .closeParen with
        eval := some .boolean, right := some .boolean })]
    let ts : List Token := [⟨.openParen, ['('], none⟩, ⟨.property, ['a'], none⟩,
      ⟨.closeParen, [')'], none⟩]
    g.FreeParens ∧ (ofTokens g ts).isOk = true ∧
      predictNext g ts = .ok [.openParen, .property, .closeParen] :=
  ⟨⟨rfl, rfl⟩, rfl, rfl⟩

end Tree

end Typeahead
