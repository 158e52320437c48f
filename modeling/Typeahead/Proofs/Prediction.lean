import Typeahead.Query.Position
import Typeahead.Proofs.Nesting
import Typeahead.Proofs.Sentence

/-!
# Following the predictions

Whoever only types tokens that are predicted can always finish the query (`Followed.completes`).

The predictions look at the last token and at the open groups, while a query is judged by its whole
tree. What ties the two together is the shape of the constructs that a followed query leaves open
(`Fits`): all of them wait for a condition (`Conditions`), but for a comparison or type test that
may stand in front and waits for a value (`Comparing`). A predicted token keeps this shape
(`Fits.read`), and so does the whole run (`Followed.progress`).
-/

namespace Typeahead

open Grammar

namespace Position

variable {k : TokenKind} {inside : Bool}

theorem mem_predict_beginning : k ∈ predict standard inside .beginning ↔
    k = .openParen ∨ k = .property ∨ k = .notOp ∨ k = .typeIs := by
  have h : predict standard inside .beginning = [.openParen, .property, .notOp, .typeIs] := rfl
  simp [h]

theorem mem_predict_middle : k ∈ predict standard inside .middle ↔ k.isComparison = true := by
  have h : predict standard inside .middle = [.equal, .notEqual, .less, .atMost, .greater,
    .atLeast, .beginsWith, .endsWith, .contains, .any, .matchesPattern] := rfl
  rw [h]
  cases k <;> decide

theorem mem_predict_ending :
    k ∈ predict standard inside .ending ↔ k.isValue = true ∧ k ≠ .property := by
  have h : predict standard inside .ending = [.number, .string, .parameter, .placeholder, .null,
    .undefined, .falsity, .truth, .no, .yes] := rfl
  rw [h]
  cases k <;> decide

theorem mem_predict_after : k ∈ predict standard inside .after ↔
    k = .closeParen ∧ inside = true ∨ k.isConnective = true := by
  have h : predict standard inside .after =
    (if inside then [.closeParen] else []) ++ [.andOp, .orOp] := rfl
  rw [h]
  cases k <;> cases inside <;> decide

theorem ofLast_of_isComparison {t : Token} (h : t.kind.isComparison = true) :
    ofLast standard (some t) = .ok .ending ∧ Nesting.weight t = 0 := by
  obtain ⟨k, v, q⟩ := t
  cases k <;> first | exact ⟨rfl, rfl⟩ | cases h

theorem ofLast_of_isValue {t : Token} (h : t.kind.isValue = true) (hp : t.kind ≠ .property) :
    ofLast standard (some t) = .ok .after ∧ Nesting.weight t = 0 := by
  obtain ⟨k, v, q⟩ := t
  cases k <;> first | exact ⟨rfl, rfl⟩ | exact absurd rfl hp | cases h

theorem ofLast_of_isConnective {t : Token} (h : t.kind.isConnective = true) :
    ofLast standard (some t) = .ok .beginning ∧ Nesting.weight t = 0 := by
  obtain ⟨k, v, q⟩ := t
  cases k <;> first | exact ⟨rfl, rfl⟩ | cases h

end Position

/-- The open constructs all wait for a condition, and `n` of them are groups. -/
inductive Conditions : Nat → List Frame → Prop
  | nil : Conditions 0 []
  | group {n : Nat} {frames : List Frame} (position : Nat) :
      Conditions n frames → Conditions (n + 1) (.group position :: frames)
  | prefixOp {n : Nat} {frames : List Frame} (position : Nat) (operator : Token) :
      Conditions n frames →
      Conditions n (.prefixOp position operator .boolean .boolean :: frames)
  | infixOp {n : Nat} {frames : List Frame} (position : Nat) (operator : Token) (left : Tree) :
      Conditions n frames →
      Conditions n (.infixOp position operator left 1 .boolean .boolean :: frames)

/-- The construct waits for a value and makes a condition of it. -/
inductive Comparing : Frame → Prop
  | prefixOp (position : Nat) (operator : Token) :
      Comparing (.prefixOp position operator .primitive .boolean)
  | infixOp (position : Nat) (operator : Token) (left : Tree) :
      Comparing (.infixOp position operator left 2 .primitive .boolean)

namespace Conditions

variable {n : Nat} {frames : List Frame} {token : Token}

theorem floor_le (h : Conditions n frames) : Frame.floor frames ≤ 2 := by
  cases h <;> simp [Frame.floor, ValueType.power]

/-- A connective closes the conditions in front of it and joins what they have become. -/
theorem read_connective (h : Conditions n frames) (hk : token.kind.isConnective = true)
    (position : Nat) : ∀ tree, ∃ outer left,
      Stage.readAfter standard position token frames tree .boolean =
        .ok (.awaiting (.infixOp position token left 1 .boolean .boolean :: outer)) ∧
      Conditions n outer := by
  have hc : standard.continuation? token.kind = some ⟨.boolean, some .boolean, .boolean⟩ :=
    continuation?_eq_some.2 (standard_of_isConnective hk)
  have hle : ∀ c, standard.continuation? token.kind = some c → c.left.power ≤ 1 := by
    intro c h
    rw [hc] at h
    cases h
    decide
  induction h with
  | nil =>
    intro tree
    refine ⟨[], tree, ?_, .nil⟩
    rw [Stage.readAfter_of_floor_le hc (by decide)]
    rfl
  | @group n frames site h _ =>
    intro tree
    refine ⟨.group site :: frames, tree, ?_, .group site h⟩
    rw [Stage.readAfter_of_floor_le hc (Nat.zero_le _)]
    rfl
  | prefixOp site operator _ ih =>
    intro tree
    rw [Stage.readAfter_close_prefixOp hle]
    exact ih _
  | infixOp site operator left _ ih =>
    intro tree
    rw [Stage.readAfter_close_infixOp hle]
    exact ih _

theorem read_closer (h : Conditions n frames) (hn : 0 < n) (hk : token.kind = .closeParen)
    (position : Nat) : ∀ tree, ∃ outer inner,
      Stage.readAfter standard position token frames tree .boolean =
        .ok (.holding outer (.group inner) .boolean) ∧ Conditions (n - 1) outer := by
  have hle : ∀ m c, standard.continuation? token.kind = some c → c.left.power ≤ m := by
    intro m c h
    rw [hk, continuation?_eq_none standard_plainGroups.closeParen] at h
    cases h
  induction h with
  | nil => cases hn
  | @group n frames site h _ =>
    intro tree
    exact ⟨frames, tree, Stage.readAfter_close_group standard_plainGroups hk, h⟩
  | prefixOp site operator _ ih =>
    intro tree
    rw [Stage.readAfter_close_prefixOp (hle _)]
    exact ih hn _
  | infixOp site operator left _ ih =>
    intro tree
    rw [Stage.readAfter_close_infixOp (hle _)]
    exact ih hn _

theorem exists_closeAll_iff (h : Conditions n frames) :
    ∀ tree, (∃ t, Stage.closeAll frames tree .boolean = .ok t) ↔ n = 0 := by
  induction h with
  | nil =>
    intro tree
    simp [Stage.closeAll]
  | group site _ _ =>
    intro tree
    simp [Stage.closeAll]
  | prefixOp site operator _ ih | infixOp site operator left _ ih =>
    intro tree
    rw [Stage.closeAll, if_pos rfl]
    exact ih _

/-- A value completes no condition, unless nothing is open. -/
theorem eq_nil_of_closeAll (h : Conditions n frames) {tree t : Tree}
    (hc : Stage.closeAll frames tree .primitive = .ok t) : frames = [] ∧ t = tree := by
  cases h with
  | nil =>
    cases hc
    exact ⟨rfl, rfl⟩
  | group | prefixOp | infixOp => cases hc

end Conditions

namespace Comparing

variable {frame : Frame} {frames : List Frame}

theorem readAfter_eq (h : Comparing frame) (position : Nat) (token : Token) (tree : Tree) :
    ∃ tree', Stage.readAfter standard position token (frame :: frames) tree .primitive =
      Stage.readAfter standard position token frames tree' .boolean := by
  have hle : ∀ c, standard.continuation? token.kind = some c → c.left.power ≤ 2 := by
    intro c _
    cases c.left <;> decide
  cases h with
  | prefixOp site operator => exact ⟨_, Stage.readAfter_close_prefixOp hle⟩
  | infixOp site operator left => exact ⟨_, Stage.readAfter_close_infixOp hle⟩

theorem closeAll_eq (h : Comparing frame) (tree : Tree) :
    ∃ tree', Stage.closeAll (frame :: frames) tree .primitive =
      Stage.closeAll frames tree' .boolean := by
  cases h with
  | prefixOp site operator => exact ⟨_, if_pos rfl⟩
  | infixOp site operator left => exact ⟨_, if_pos rfl⟩

end Comparing

/-- The stage in which a followed query with `n` open groups leaves a reader at a position. -/
inductive Fits : Nat → Position → Stage → Prop
  | beginning {n : Nat} {frames : List Frame} :
      Conditions n frames → Fits n .beginning (.awaiting frames)
  | middle {n : Nat} {frames : List Frame} {token : Token} : token.kind = .property →
      Conditions n frames → Fits n .middle (.holding frames (.leaf token) .primitive)
  | ending {n : Nat} {frame : Frame} {frames : List Frame} : Comparing frame →
      Conditions n frames → Fits n .ending (.awaiting (frame :: frames))
  | value {n : Nat} {frame : Frame} {frames : List Frame} {tree : Tree} : Comparing frame →
      Conditions n frames → Fits n .after (.holding (frame :: frames) tree .primitive)
  | closed {n : Nat} {frames : List Frame} {tree : Tree} :
      Conditions n frames → Fits n .after (.holding frames tree .boolean)

/-- The reader goes on to the stage of the token's own position, with one group more for an opening
parenthesis and one less for a closing one. -/
def Leads (n : Nat) (token : Token) (r : Except QueryError Stage) : Prop :=
  ∃ s p m, r = .ok s ∧ Position.ofLast standard (some token) = .ok p ∧ Fits m p s ∧
    (m : Int) = n + Nesting.weight token

section Leads

variable {n position : Nat} {frame : Frame} {frames : List Frame} {token : Token}

theorem Conditions.leads_operand (h : Conditions n frames) (hk : token.kind = .openParen ∨
    token.kind = .property ∨ token.kind = .notOp ∨ token.kind = .typeIs) :
    Leads n token (Stage.readOperand standard position token frames) := by
  obtain ⟨k, v, q⟩ := token
  rcases hk with hk | hk | hk | hk <;> cases hk
  · exact ⟨_, .beginning, n + 1, rfl, rfl, .beginning (.group position h), rfl⟩
  · exact ⟨_, .middle, n, rfl, rfl, .middle rfl h, (Int.add_zero _).symm⟩
  · exact ⟨_, .beginning, n, rfl, rfl, .beginning (.prefixOp position _ h), (Int.add_zero _).symm⟩
  · exact ⟨_, .ending, n, rfl, rfl, .ending (.prefixOp position _) h, (Int.add_zero _).symm⟩

theorem Conditions.leads_comparison (h : Conditions n frames) (tree : Tree)
    (hk : token.kind.isComparison = true) :
    Leads n token (Stage.readAfter standard position token frames tree .primitive) := by
  have hc : standard.continuation? token.kind = some ⟨.primitive, some .primitive, .boolean⟩ :=
    continuation?_eq_some.2 (standard_of_isComparison hk)
  obtain ⟨hp, hw⟩ := Position.ofLast_of_isComparison hk
  rw [Stage.readAfter_of_floor_le hc h.floor_le]
  exact ⟨_, .ending, n, rfl, hp, .ending (.infixOp position token tree) h, by omega⟩

theorem Comparing.leads_value (hf : Comparing frame) (h : Conditions n frames)
    (hk : token.kind.isValue = true) (hp : token.kind ≠ .property) :
    Leads n token (Stage.readOperand standard position token (frame :: frames)) := by
  have hleaf : (standard.get? token.kind).any Rule.isLeaf = true := by
    rw [any_isLeaf_standard, hk]
  simp only [any_isLeaf, Bool.and_eq_true, Option.isNone_iff_eq_none] at hleaf
  rw [Stage.readOperand_of_eval standard_plainGroups hleaf.1.2 (eval?_standard_of_isValue hk),
    hleaf.2]
  obtain ⟨hpos, hw⟩ := Position.ofLast_of_isValue hk hp
  exact ⟨_, .after, n, rfl, hpos, .value hf h, by omega⟩

theorem Conditions.leads_after (h : Conditions n frames) (tree : Tree)
    (hk : token.kind = .closeParen ∧ decide (0 < n) = true ∨ token.kind.isConnective = true) :
    Leads n token (Stage.readAfter standard position token frames tree .boolean) := by
  rcases hk with ⟨hk, hn⟩ | hk
  · have hn : 0 < n := by simpa using hn
    obtain ⟨outer, inner, hr, ho⟩ := h.read_closer hn hk position tree
    obtain ⟨k, v, q⟩ := token
    cases hk
    refine ⟨_, .after, n - 1, hr, rfl, .closed ho, ?_⟩
    simp only [Nesting.weight]
    omega
  · obtain ⟨outer, left, hr, ho⟩ := h.read_connective hk position tree
    obtain ⟨hp, hw⟩ := Position.ofLast_of_isConnective hk
    exact ⟨_, .beginning, n, hr, hp, .beginning (.infixOp position token left ho), by omega⟩

/-- A predicted token keeps the shape of what is open. -/
theorem Fits.read {p : Position} {s : Stage} (h : Fits n p s)
    (hk : token.kind ∈ p.predict standard (decide (0 < n))) (position : Nat) :
    Leads n token (s.read standard position token) := by
  cases h with
  | beginning h => exact h.leads_operand (Position.mem_predict_beginning.1 hk)
  | middle _ h => exact h.leads_comparison _ (Position.mem_predict_middle.1 hk)
  | ending hf h =>
    obtain ⟨hv, hp⟩ := Position.mem_predict_ending.1 hk
    exact hf.leads_value h hv hp
  | value hf h =>
    obtain ⟨tree, ht⟩ := hf.readAfter_eq position token _
    rw [Stage.read, ht]
    exact h.leads_after tree (Position.mem_predict_after.1 hk)
  | closed h => exact h.leads_after _ (Position.mem_predict_after.1 hk)

end Leads

/-- A query made by appending, again and again, a token of a predicted kind. -/
inductive Followed : List Token → Prop
  | nil : Followed []
  | append {ts : List Token} {kinds : List TokenKind} {token : Token} : Followed ts →
      predictNext standard ts = .ok kinds → token.kind ∈ kinds → Followed (ts ++ [token])

/-- Where a reader is after the tokens of a followed query. -/
structure Progress (ts : List Token) (n : Nat) (p : Position) (s : Stage) : Prop where
  read : (Stage.awaiting []).readAll standard 0 ts = .ok s
  position : Position.ofLast standard ts.getLast? = .ok p
  fits : Fits n p s
  balance : Nesting.balance ts = n
  nested : Nesting.Nested ts

namespace Progress

variable {ts : List Token} {n : Nat} {p : Position} {s : Stage}

theorem predictNext_eq (h : Progress ts n p s) :
    predictNext standard ts = .ok (p.predict standard (decide (0 < n))) := by
  rw [predictNext, h.position, Nesting.endsInside_of_nested h.nested, h.balance]
  simp [Except.map]

theorem openCount_eq (h : Progress ts n p s) : Nesting.openCount ts = n := by
  rw [Nesting.openCount, h.balance, Int.toNat_natCast]

theorem append (h : Progress ts n p s) {token : Token}
    (hk : token.kind ∈ p.predict standard (decide (0 < n))) :
    ∃ m p' s', Progress (ts ++ [token]) m p' s' ∧
      Position.ofLast standard (some token) = .ok p' ∧ (m : Int) = n + Nesting.weight token := by
  obtain ⟨s', p', m, hr, hp, hf, hm⟩ := h.fits.read hk ts.length
  have hb : Nesting.balance (ts ++ [token]) = m := by
    rw [Nesting.balance_append, Nesting.balance_singleton, h.balance, hm]
  refine ⟨m, p', s', ⟨?_, ?_, hf, hb, ?_⟩, hp, hm⟩
  · rw [Stage.readAll_append ts h.read, Nat.zero_add]
    exact Stage.readAll_singleton hr
  · rw [List.getLast?_concat]
    exact hp
  · exact Nesting.nested_append_singleton.2 ⟨h.nested, by omega⟩

/-- A followed query is complete if it is empty, a lone attribute, or ends after a condition with no
group open. -/
theorem isOk_iff (h : Progress ts n p s) : (Tree.ofTokens standard ts).isOk = true ↔
    ts = [] ∨ (∃ t, ts = [t] ∧ t.kind = .property) ∨ p = .after ∧ n = 0 := by
  constructor
  · intro hok
    rcases Tree.isOk_ofTokens.1 hok with rfl | ⟨t, ht⟩
    · exact .inl rfl
    obtain ⟨frames, tree, type, hr, hc⟩ := Tree.ofTokens_eq_some.1 ht
    rw [h.read] at hr
    cases hr
    right
    cases h.fits with
    | middle hk hframes =>
      obtain ⟨-, rfl⟩ := hframes.eq_nil_of_closeAll hc
      obtain ⟨v, ht⟩ := Tree.ofTokens_sound ht
      cases ht.yields
      exact .inl ⟨_, rfl, hk⟩
    | value hf hframes =>
      obtain ⟨tree', he⟩ := hf.closeAll_eq tree
      exact .inr ⟨rfl, (hframes.exists_closeAll_iff tree').1 ⟨t, he ▸ hc⟩⟩
    | closed hframes => exact .inr ⟨rfl, (hframes.exists_closeAll_iff tree).1 ⟨t, hc⟩⟩
  · rintro (rfl | ⟨t, rfl, hk⟩ | ⟨rfl, rfl⟩)
    · rfl
    · exact Tree.isOk_ofTokens_standard.2 (.value (.value (by rw [hk]; rfl)))
    · refine Tree.isOk_ofTokens.2 (.inr ?_)
      cases hs : h.fits with
      | @value frame frames tree hf hframes =>
        obtain ⟨tree', he⟩ := hf.closeAll_eq tree
        obtain ⟨t, ht⟩ := (hframes.exists_closeAll_iff tree').2 rfl
        exact ⟨t, Tree.ofTokens_eq_some.2 ⟨_, _, _, h.read, he.trans ht⟩⟩
      | @closed frames tree hframes =>
        obtain ⟨t, ht⟩ := (hframes.exists_closeAll_iff tree).2 rfl
        exact ⟨t, Tree.ofTokens_eq_some.2 ⟨_, _, _, h.read, ht⟩⟩

end Progress

theorem Followed.progress {ts : List Token} (h : Followed ts) : ∃ n p s, Progress ts n p s := by
  induction h with
  | nil => exact ⟨0, .beginning, .awaiting [], rfl, rfl, .beginning .nil, rfl, Nesting.nested_nil⟩
  | append _ hp hk ih =>
    obtain ⟨n, p, s, h⟩ := ih
    rw [h.predictNext_eq] at hp
    cases hp
    obtain ⟨m, p', s', h', -⟩ := h.append hk
    exact ⟨m, p', s', h'⟩

namespace Followed

variable {ts : List Token} {n : Nat} {p : Position} {s : Stage}

theorem append_of_progress (h : Followed ts) (hp : Progress ts n p s) (token : Token)
    (hk : token.kind ∈ p.predict standard (decide (0 < n))) :
    Followed (ts ++ [token]) ∧ ∃ m p' s', Progress (ts ++ [token]) m p' s' ∧
      Position.ofLast standard (some token) = .ok p' ∧ (m : Int) = n + Nesting.weight token :=
  ⟨h.append hp.predictNext_eq hk, hp.append hk⟩

/-- Closing one open group after the other goes on following the predictions. -/
theorem close : ∀ (closers : List Token) {ts : List Token} {n : Nat} {s : Stage}, Followed ts →
    Progress ts n .after s → closers.length = n → (∀ c ∈ closers, c.kind = .closeParen) →
      Followed (ts ++ closers) ∧ ∃ s', Progress (ts ++ closers) 0 .after s'
  | [], ts, n, s, h, hp, hn, _ => by
    subst hn
    simpa using ⟨h, s, hp⟩
  | c :: closers, ts, n, s, h, hp, hn, hc => by
    obtain ⟨k, v, q⟩ := c
    cases hc _ List.mem_cons_self
    have hk : TokenKind.closeParen ∈ Position.predict standard (decide (0 < n)) .after := by
      rw [Position.mem_predict_after]
      simp [← hn]
    obtain ⟨h', m, p', s', hp', hlast, hm⟩ := h.append_of_progress hp ⟨.closeParen, v, q⟩ hk
    cases hlast
    have hlen : closers.length = m := by
      simp only [Nesting.weight] at hm
      simp only [List.length_cons] at hn
      omega
    rw [List.append_cons]
    exact close closers h' hp' hlen fun c hc' => hc c (List.mem_cons_of_mem _ hc')

/-- From every position the predictions lead to the end of a condition: an attribute, then a
comparison, then a value. -/
theorem reaches_after (h : Followed ts) (hp : Progress ts n p s) :
    ∃ more m s', Followed (ts ++ more) ∧ Progress (ts ++ more) m .after s' := by
  have hending : ∀ {ts n s}, Followed ts → Progress ts n .ending s →
      ∃ more m s', Followed (ts ++ more) ∧ Progress (ts ++ more) m .after s' := by
    intro ts n s h hp
    obtain ⟨h', m, p', s', hp', hlast, -⟩ := h.append_of_progress hp ⟨.number, ['0'], none⟩
      (Position.mem_predict_ending.2 (by decide))
    cases hlast
    exact ⟨_, m, s', h', hp'⟩
  have hmiddle : ∀ {ts n s}, Followed ts → Progress ts n .middle s →
      ∃ more m s', Followed (ts ++ more) ∧ Progress (ts ++ more) m .after s' := by
    intro ts n s h hp
    obtain ⟨h', m, p', s', hp', hlast, -⟩ := h.append_of_progress hp ⟨.equal, ['='], none⟩
      (Position.mem_predict_middle.2 (by decide))
    cases hlast
    obtain ⟨more, m, s', h'', hp''⟩ := hending h' hp'
    rw [List.append_assoc] at h'' hp''
    exact ⟨_, m, s', h'', hp''⟩
  cases hs : hp.fits with
  | beginning =>
    obtain ⟨h', m, p', s', hp', hlast, -⟩ := h.append_of_progress hp ⟨.property, ['a'], none⟩
      (Position.mem_predict_beginning.2 (by decide))
    cases hlast
    obtain ⟨more, m, s', h'', hp''⟩ := hmiddle h' hp'
    rw [List.append_assoc] at h'' hp''
    exact ⟨_, m, s', h'', hp''⟩
  | middle => exact hmiddle h hp
  | ending => exact hending h hp
  | value | closed => exact ⟨[], n, _, by simpa using h, by simpa using hp⟩

/-- Whoever follows the predictions can always finish: by going on, or, after a condition, by
closing the open groups. Until then the query is complete only if it is empty, a lone attribute, or
stands after a condition with no group open. -/
theorem completes (h : Followed ts) :
    (∃ more, Followed (ts ++ more) ∧ (Tree.ofTokens standard (ts ++ more)).isOk = true) ∧
    (Position.ofLast standard ts.getLast? = .ok .after → ∀ closers : List Token,
      closers.length = Nesting.openCount ts → (∀ c ∈ closers, c.kind = .closeParen) →
      (Tree.ofTokens standard (ts ++ closers)).isOk = true) ∧
    ((Tree.ofTokens standard ts).isOk = true ↔ ts = [] ∨ (∃ t, ts = [t] ∧ t.kind = .property) ∨
      Position.ofLast standard ts.getLast? = .ok .after ∧ Nesting.openCount ts = 0) := by
  obtain ⟨n, p, s, hp⟩ := h.progress
  refine ⟨?_, ?_, ?_⟩
  · obtain ⟨more, m, s', h', hp'⟩ := h.reaches_after hp
    obtain ⟨hc, s'', hp''⟩ := close (List.replicate m ⟨.closeParen, [')'], none⟩) h' hp' (by simp)
      fun c hc => by rw [List.eq_of_mem_replicate hc]
    rw [List.append_assoc] at hc hp''
    exact ⟨_, hc, hp''.isOk_iff.2 (.inr (.inr ⟨rfl, rfl⟩))⟩
  · intro hlast closers hlen hk
    rw [hp.position] at hlast
    cases hlast
    obtain ⟨-, s', hp'⟩ := close closers h hp (hlen.trans hp.openCount_eq) hk
    exact hp'.isOk_iff.2 (.inr (.inr ⟨rfl, rfl⟩))
  · rw [hp.isOk_iff, hp.position, hp.openCount_eq, Except.ok.injEq]

/-- `( NOT a = 1` follows the predictions and wants one parenthesis. -/
theorem completes_negation :
    let ts : List Token := [⟨.openParen, ['('], none⟩, ⟨.notOp, "NOT".toList, none⟩,
      ⟨.property, ['a'], none⟩, ⟨.equal, ['='], none⟩, ⟨.number, ['1'], none⟩]
    Followed ts ∧ Position.ofLast standard ts.getLast? = .ok .after ∧ Nesting.openCount ts = 1 ∧
      (Tree.ofTokens standard (ts ++ [⟨.closeParen, [')'], none⟩])).isOk = true := by
  intro ts
  have h₁ := @append [] _ ⟨.openParen, ['('], none⟩ .nil rfl (by decide)
  have h₂ := @append _ _ ⟨.notOp, "NOT".toList, none⟩ h₁ rfl (by decide)
  have h₃ := @append _ _ ⟨.property, ['a'], none⟩ h₂ rfl (by decide)
  have h₄ := @append _ _ ⟨.equal, ['='], none⟩ h₃ rfl (by decide)
  have h : Followed ts := @append _ _ ⟨.number, ['1'], none⟩ h₄ rfl (by decide)
  refine ⟨h, rfl, rfl, h.completes.2.1 rfl _ rfl ?_⟩
  simp

end Followed

end Typeahead
