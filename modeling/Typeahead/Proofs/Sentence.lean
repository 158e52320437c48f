import Mathlib.Logic.ExistsUnique
import Typeahead.Proofs.TreeComplete

/-!
# The sentences of the query language

The complete queries of the standard grammar are the sentences of a small unambiguous grammar
(`Derives`): values, which parentheses may enclose, conditions made of values, and chains of
conditions joined by connectives. A derivation is a well-typed stratified tree and back
(`Derives.operand`, `Tree.Yields.derives`), so what `Tree.ofTokens_iff` says of trees carries over to
sentences.

In this grammar stratification comes down to where connectives stand (`Tree.Grouped`), for every
operator evaluates to a boolean and so only leaves and groups are primitive
(`Tree.isItem_of_primitive`).
-/

namespace Typeahead

namespace TokenKind

/-- A word that joins two conditions. -/
def isConnective : TokenKind → Bool
  | andOp | orOp => true
  | _ => false

/-- An operator that compares two values. -/
def isComparison : TokenKind → Bool
  | equal | notEqual | less | atMost | greater | atLeast | beginsWith | endsWith | contains | any
  | matchesPattern => true
  | _ => false

/-- A value: an attribute, a literal or a constant. -/
def isValue : TokenKind → Bool
  | property | number | string | parameter | placeholder | null | undefined | falsity | truth | no
  | yes => true
  | _ => false

theorem isConnective_eq_false {k : TokenKind} (h : k.isComparison = true) :
    k.isConnective = false := by
  cases k <;> first | rfl | cases h

end TokenKind

namespace Grammar

theorem standard_plainGroups : standard.PlainGroups := ⟨rfl, rfl, rfl⟩

variable {k : TokenKind}

theorem any_isLeaf_standard : (standard.get? k).any Rule.isLeaf = k.isValue := by
  cases k <;> rfl

theorem any_isPrefixOp_standard :
    (standard.get? k).any Rule.isPrefixOp = true ↔ k = .notOp ∨ k = .typeIs := by
  cases k <;> decide

theorem any_isInfixOp_standard :
    (standard.get? k).any Rule.isInfixOp = (k.isConnective || k.isComparison) := by
  cases k <;> rfl

theorem any_isPostfixOp_standard : (standard.get? k).any Rule.isPostfixOp = false := by
  cases k <;> rfl

theorem eval?_standard_of_isValue (h : k.isValue = true) :
    standard.eval? k = some .primitive := by
  cases k <;> first | rfl | cases h

theorem standard_of_isConnective (h : k.isConnective = true) :
    standard.left? k = some .boolean ∧ standard.right? k = some .boolean ∧
      standard.eval? k = some .boolean := by
  cases k <;> first | exact ⟨rfl, rfl, rfl⟩ | cases h

theorem standard_of_isComparison (h : k.isComparison = true) :
    standard.left? k = some .primitive ∧ standard.right? k = some .primitive ∧
      standard.eval? k = some .boolean := by
  cases k <;> first | exact ⟨rfl, rfl, rfl⟩ | cases h

/-- An infix operator is a connective or a comparison and gives a boolean. -/
theorem standard_of_isInfixOp (h : (standard.get? k).any Rule.isInfixOp = true) :
    standard.eval? k = some .boolean ∧
      (k.isConnective = true ∧ standard.leftPower k = 1 ∨
        k.isComparison = true ∧ standard.leftPower k = 2) := by
  rw [any_isInfixOp_standard, Bool.or_eq_true] at h
  rcases h with h | h
  · obtain ⟨hl, -, he⟩ := standard_of_isConnective h
    exact ⟨he, .inl ⟨h, by rw [leftPower, hl]; rfl⟩⟩
  · obtain ⟨hl, -, he⟩ := standard_of_isComparison h
    exact ⟨he, .inr ⟨h, by rw [leftPower, hl]; rfl⟩⟩

end Grammar

namespace Tree

open Grammar

/-- A leaf or a group. -/
def isItem : Tree → Bool
  | .leaf _ | .group _ => true
  | _ => false

/-- Two operands joined by a connective. -/
def isJoin : Tree → Bool
  | .infixOp operator _ _ => operator.kind.isConnective
  | _ => false

/-- No join outside a group is the right operand of a connective or the operand of a comparison or
prefix operator, and what is compared, or tested for its type, is a leaf or a group. -/
def Grouped : Tree → Prop
  | .leaf _ => True
  | .group inner => inner.Grouped
  | .prefixOp operator operand =>
    operand.isJoin = false ∧ (operator.kind = .typeIs → operand.isItem = true) ∧ operand.Grouped
  | .infixOp operator left right =>
    (operator.kind.isConnective = true → right.isJoin = false) ∧
      (operator.kind.isComparison = true → left.isItem = true ∧ right.isItem = true) ∧
      left.Grouped ∧ right.Grouped
  | .postfixOp _ operand => operand.Grouped

theorem not_wellTyped_postfixOp {operator : Token} {operand : Tree} :
    ¬ (postfixOp operator operand).WellTyped standard := by
  intro h
  rw [WellTyped, any_isPostfixOp_standard] at h
  cases h.1

theorem isItem_of_primitive : ∀ {t : Tree}, t.WellTyped standard →
    t.type? standard = some .primitive → t.isItem = true
  | .leaf _, _, _ | .group _, _, _ => rfl
  | .prefixOp operator operand, h, ht => by
    rcases any_isPrefixOp_standard.1 h.1 with hk | hk <;> rw [type?, hk] at ht <;> cases ht
  | .infixOp operator left right, h, ht => by
    rw [type?, (standard_of_isInfixOp h.1).1] at ht
    cases ht
  | .postfixOp _ _, h, _ => absurd h not_wellTyped_postfixOp

theorem atLeast_of_isItem {g : Grammar} (n : Nat) : ∀ {t : Tree}, t.isItem = true →
    t.LeftAtLeast g n ∧ t.RightAtLeast g n
  | .leaf _, _ | .group _, _ => ⟨trivial, trivial⟩

/-- Every operator gives way to a connective. -/
theorem rightAtLeast_one : ∀ {t : Tree}, t.WellTyped standard → t.RightAtLeast standard 1
  | .leaf _, _ | .group _, _ | .postfixOp _ _, _ => trivial
  | .prefixOp operator operand, h => by
    refine ⟨?_, rightAtLeast_one h.2.2⟩
    rcases any_isPrefixOp_standard.1 h.1 with hk | hk <;> rw [hk] <;> decide
  | .infixOp operator left right, h => by
    refine ⟨?_, rightAtLeast_one h.2.2.2.2⟩
    rcases (standard_of_isInfixOp h.1).2 with ⟨-, hp⟩ | ⟨-, hp⟩ <;> omega

/-- Only a join is looser than a comparison. -/
theorem leftAtLeast_two_iff : ∀ {t : Tree}, t.WellTyped standard → t.Grouped →
    (t.LeftAtLeast standard 2 ↔ t.isJoin = false)
  | .leaf _, _, _ | .group _, _, _ | .prefixOp _ _, _, _ => by simp [LeftAtLeast, isJoin]
  | .infixOp operator left right, h, hg => by
    rcases (standard_of_isInfixOp h.1).2 with ⟨hk, hp⟩ | ⟨hk, hp⟩
    · simp [LeftAtLeast, isJoin, hk, hp]
    · have hj := TokenKind.isConnective_eq_false hk
      have hl := (atLeast_of_isItem (g := standard) 2 (hg.2.1 hk).1).1
      simp [LeftAtLeast, isJoin, hj, hp, hl]
  | .postfixOp _ _, h, _ => absurd h not_wellTyped_postfixOp

/-- For a well-typed tree, to be stratified is to have its connectives in their places. -/
theorem stratified_iff_grouped : ∀ {t : Tree}, t.WellTyped standard →
    (t.Stratified standard ↔ t.Grouped)
  | .leaf _, _ => Iff.rfl
  | .group inner, h => stratified_iff_grouped (t := inner) h
  | .prefixOp operator operand, h => by
    have ih := stratified_iff_grouped h.2.2
    simp only [Stratified, Grouped]
    rcases any_isPrefixOp_standard.1 h.1 with hk | hk
    · have hp : standard.rightPower operator.kind = 1 := by rw [hk]; rfl
      rw [hp, ih]
      constructor
      · rintro ⟨hl, hg⟩
        exact ⟨(leftAtLeast_two_iff h.2.2 hg).1 hl, by simp [hk], hg⟩
      · rintro ⟨hj, -, hg⟩
        exact ⟨(leftAtLeast_two_iff h.2.2 hg).2 hj, hg⟩
    · have ht : operand.type? standard = some .primitive := by rw [h.2.1, hk]; rfl
      have hi := isItem_of_primitive h.2.2 ht
      have hj : operand.isJoin = false := by cases operand <;> first | rfl | cases hi
      simp [ih, hi, hj, (atLeast_of_isItem _ hi).1]
  | .infixOp operator left right, h => by
    have ihl := stratified_iff_grouped h.2.2.2.1
    have ihr := stratified_iff_grouped h.2.2.2.2
    simp only [Stratified, Grouped]
    rcases (standard_of_isInfixOp h.1).2 with ⟨hk, hp⟩ | ⟨hk, hp⟩
    · have hc : operator.kind.isComparison ≠ true := fun hc => by
        simp [TokenKind.isConnective_eq_false hc] at hk
      rw [hp, ihl, ihr]
      constructor
      · rintro ⟨-, hr, hgl, hgr⟩
        exact ⟨fun _ => (leftAtLeast_two_iff h.2.2.2.2 hgr).1 hr, (absurd · hc), hgl, hgr⟩
      · rintro ⟨hj, -, hgl, hgr⟩
        exact ⟨rightAtLeast_one h.2.2.2.1, (leftAtLeast_two_iff h.2.2.2.2 hgr).2 (hj hk), hgl, hgr⟩
    · have hc := TokenKind.isConnective_eq_false hk
      obtain ⟨htl, htr, -⟩ := standard_of_isComparison hk
      have hil := isItem_of_primitive h.2.2.2.1 (h.2.1.trans htl)
      have hir := isItem_of_primitive h.2.2.2.2 (h.2.2.1.trans htr)
      simp [ihl, ihr, hc, hil, hir, (atLeast_of_isItem _ hil).2, (atLeast_of_isItem _ hir).1]
  | .postfixOp _ _, h => absurd h not_wellTyped_postfixOp

end Tree

/-- The parts of speech: a value, a condition, and conditions joined by connectives. -/
inductive Category where
  | value | condition | chain

namespace Category

/-- What a phrase evaluates to. -/
def type : Category → ValueType
  | value => .primitive
  | condition | chain => .boolean

/-- The least power of an operator that a phrase may have outside groups. -/
def floor : Category → Nat
  | value => 3
  | condition => 2
  | chain => 1

end Category

/-- The phrases of the query language. -/
inductive Derives : Category → List Token → Prop
  | value {token : Token} : token.kind.isValue = true → Derives .value [token]
  | valueGroup {opening closing : Token} {ts : List Token} :
      opening.kind = .openParen → closing.kind = .closeParen → Derives .value ts →
      Derives .value (opening :: (ts ++ [closing]))
  | comparison {operator : Token} {ls rs : List Token} :
      operator.kind.isComparison = true → Derives .value ls → Derives .value rs →
      Derives .condition (ls ++ operator :: rs)
  | negation {operator : Token} {ts : List Token} :
      operator.kind = .notOp → Derives .condition ts → Derives .condition (operator :: ts)
  | typeTest {operator : Token} {ts : List Token} :
      operator.kind = .typeIs → Derives .value ts → Derives .condition (operator :: ts)
  | chainGroup {opening closing : Token} {ts : List Token} :
      opening.kind = .openParen → closing.kind = .closeParen → Derives .chain ts →
      Derives .condition (opening :: (ts ++ [closing]))
  | single {ts : List Token} : Derives .condition ts → Derives .chain ts
  | join {operator : Token} {ls rs : List Token} :
      operator.kind.isConnective = true → Derives .chain ls → Derives .condition rs →
      Derives .chain (ls ++ operator :: rs)

/-- A complete query: nothing, a value or a chain of conditions. -/
inductive Sentence : List Token → Prop
  | empty : Sentence []
  | value {ts : List Token} : Derives .value ts → Sentence ts
  | chain {ts : List Token} : Derives .chain ts → Sentence ts

section

open Grammar

theorem Tree.LeftAtLeast.mono {g : Grammar} {m n : Nat} (h : n ≤ m) :
    ∀ {t : Tree}, t.LeftAtLeast g m → t.LeftAtLeast g n
  | .leaf _, _ | .group _, _ | .prefixOp _ _, _ => trivial
  | .infixOp _ _ _, ht | .postfixOp _ _, ht => ⟨Nat.le_trans h ht.1, mono h ht.2⟩

/-- A phrase has a tree. -/
theorem Derives.operand {c : Category} {ts : List Token} (h : Derives c ts) :
    ∃ t, Operand standard c.floor t c.type ts := by
  induction h with
  | @value token hk =>
    refine ⟨.leaf token, .leaf token, ?_, eval?_standard_of_isValue hk, trivial, trivial⟩
    rw [Tree.WellTyped, any_isLeaf_standard, hk]
  | valueGroup ho hc _ ih | chainGroup ho hc _ ih =>
    obtain ⟨t, ht⟩ := ih
    exact ⟨.group t, ht.group ho hc⟩
  | comparison hk _ _ ihl ihr =>
    obtain ⟨l, hl⟩ := ihl
    obtain ⟨r, hr⟩ := ihr
    obtain ⟨hkl, hkr, hke⟩ := standard_of_isComparison hk
    obtain ⟨hleft, hright⟩ := Tree.atLeast_of_isItem (g := standard) 2
      (Tree.isItem_of_primitive hl.typed hl.type_eq)
    exact ⟨.infixOp _ l r, .infixOp hkl hkr hke { hl with left := hleft } hright (Nat.le_refl _) hr⟩
  | @negation operator _ hk _ ih =>
    obtain ⟨t, ht⟩ := ih
    have hr : standard.right? operator.kind = some .boolean := by rw [hk]; rfl
    exact ⟨.prefixOp operator t, .prefixOp (by rw [hk]; rfl) hr (by rw [hk]; rfl) ht⟩
  | @typeTest operator _ hk _ ih =>
    obtain ⟨t, ht⟩ := ih
    have hr : standard.right? operator.kind = some .primitive := by rw [hk]; rfl
    exact ⟨.prefixOp operator t, .prefixOp (by rw [hk]; rfl) hr (by rw [hk]; rfl) ht⟩
  | single _ ih =>
    obtain ⟨t, ht⟩ := ih
    exact ⟨t, { ht with left := ht.left.mono (by decide) }⟩
  | join hk _ _ ihl ihr =>
    obtain ⟨l, hl⟩ := ihl
    obtain ⟨r, hr⟩ := ihr
    obtain ⟨hkl, hkr, hke⟩ := standard_of_isConnective hk
    exact ⟨.infixOp _ l r,
      hl.infixOp hkl hkr hke (Tree.rightAtLeast_one hl.typed) (Nat.le_refl _) hr⟩

/-- A tree is a phrase of its type; a boolean one without a join outside groups is a single
condition. -/
theorem Tree.Yields.derives {t : Tree} {ts : List Token} (hy : t.Yields ts) :
    t.WellTyped standard → t.Stratified standard →
      (t.type? standard = some .primitive → Derives .value ts) ∧
      (t.type? standard = some .boolean → Derives .chain ts ∧
        (t.LeftAtLeast standard 2 → Derives .condition ts)) := by
  induction hy with
  | leaf token =>
    intro h _
    rw [WellTyped, any_isLeaf_standard] at h
    refine ⟨fun _ => .value h, fun ht => ?_⟩
    rw [type?, eval?_standard_of_isValue h] at ht
    cases ht
  | group ho hc _ ih =>
    intro h hs
    obtain ⟨hv, hb⟩ := ih h hs
    refine ⟨fun ht => .valueGroup ho hc (hv ht), fun ht => ?_⟩
    have := Derives.chainGroup ho hc (hb ht).1
    exact ⟨.single this, fun _ => this⟩
  | prefixOp operator _ ih =>
    intro h hs
    refine ⟨fun ht => absurd (isItem_of_primitive h ht) (by simp [isItem]), fun _ => ?_⟩
    obtain ⟨hv, hb⟩ := ih h.2.2 hs.2
    rcases any_isPrefixOp_standard.1 h.1 with hk | hk
    · have ht := h.2.1
      have hl := hs.1
      rw [hk] at ht hl
      have := Derives.negation hk ((hb ht).2 hl)
      exact ⟨.single this, fun _ => this⟩
    · have ht := h.2.1
      rw [hk] at ht
      have := Derives.typeTest hk (hv ht)
      exact ⟨.single this, fun _ => this⟩
  | infixOp operator _ _ ihl ihr =>
    intro h hs
    refine ⟨fun ht => absurd (isItem_of_primitive h ht) (by simp [isItem]), fun _ => ?_⟩
    obtain ⟨hk, htl, htr, hwl, hwr⟩ := h
    obtain ⟨-, hleft, hsl, hsr⟩ := hs
    rcases (standard_of_isInfixOp hk).2 with ⟨hk, hp⟩ | ⟨hk, hp⟩
    · obtain ⟨hkl, hkr, -⟩ := standard_of_isConnective hk
      rw [hp] at hleft
      refine ⟨.join hk ((ihl hwl hsl).2 (htl.trans hkl)).1
        (((ihr hwr hsr).2 (htr.trans hkr)).2 hleft), fun hl => ?_⟩
      have := hl.1
      omega
    · obtain ⟨hkl, hkr, -⟩ := standard_of_isComparison hk
      have := Derives.comparison hk ((ihl hwl hsl).1 (htl.trans hkl))
        ((ihr hwr hsr).1 (htr.trans hkr))
      exact ⟨.single this, fun _ => this⟩
  | postfixOp operator _ _ => exact fun h _ => absurd h not_wellTyped_postfixOp

/-- The complete queries are the sentences. -/
theorem Tree.isOk_ofTokens_standard {ts : List Token} :
    (ofTokens standard ts).isOk = true ↔ Sentence ts := by
  rw [isOk_ofTokens]
  constructor
  · rintro (rfl | ⟨t, h⟩)
    · exact .empty
    · obtain ⟨v, ht⟩ := ofTokens_sound h
      obtain ⟨hv, hb⟩ := ht.yields.derives ht.typed ht.stratified
      cases v with
      | primitive => exact .value (hv ht.type_eq)
      | boolean => exact .chain (hb ht.type_eq).1
  · have hread : ∀ {c : Category}, Derives c ts → ∃ t, ofTokens standard ts = .ok (some t) := by
      intro c h
      obtain ⟨t, ht⟩ := h.operand
      exact ⟨t, (ofTokens_iff standard_plainGroups).2 ⟨ht.yields, ht.typed, ht.stratified⟩⟩
    rintro (_ | h | h)
    · exact .inl rfl
    · exact .inr (hread h)
    · exact .inr (hread h)

theorem Tree.ofTokens_standard_iff {t : Tree} {ts : List Token} :
    ofTokens standard ts = .ok (some t) ↔ t.WellTyped standard ∧ t.Grouped ∧ t.Yields ts := by
  rw [ofTokens_iff standard_plainGroups]
  constructor
  · rintro ⟨hy, hw, hs⟩
    exact ⟨hw, (stratified_iff_grouped hw).1 hs, hy⟩
  · rintro ⟨hw, hg, hy⟩
    exact ⟨hy, hw, (stratified_iff_grouped hw).2 hg⟩

/-- A well-typed tree whose connectives stand in their places is the tree of its own tokens, the
complete queries are the sentences, and each but the empty one has exactly one such tree. -/
theorem Tree.standard_unique_reading :
    (∀ (t : Tree) (ts : List Token), t.WellTyped standard → t.Grouped → t.Yields ts →
      ofTokens standard ts = .ok (some t)) ∧
    (∀ ts : List Token, (ofTokens standard ts).isOk = true ↔ Sentence ts) ∧
    ∀ ts : List Token, ts ≠ [] → (ofTokens standard ts).isOk = true →
      ∃! t : Tree, t.WellTyped standard ∧ t.Grouped ∧ t.Yields ts := by
  refine ⟨fun t ts hw hg hy => ofTokens_standard_iff.2 ⟨hw, hg, hy⟩,
    fun ts => isOk_ofTokens_standard, ?_⟩
  intro ts hne hok
  obtain ⟨t, ht⟩ := (isOk_ofTokens.1 hok).resolve_left hne
  refine ⟨t, ofTokens_standard_iff.1 ht, fun t' ht' => ?_⟩
  rw [ofTokens_standard_iff.2 ht'] at ht
  cases ht
  rfl

/-- `a = 1 OR NOT TYPE_IS (b)` is read with the negation around the whole type test. -/
theorem Tree.standard_unique_reading_negation :
    ofTokens standard [⟨.property, ['a'], none⟩, ⟨.equal, ['='], none⟩, ⟨.number, ['1'], none⟩,
        ⟨.orOp, "OR".toList, none⟩, ⟨.notOp, "NOT".toList, none⟩,
        ⟨.typeIs, "TYPE_IS".toList, none⟩, ⟨.openParen, ['('], none⟩, ⟨.string, ['b'], none⟩,
        ⟨.closeParen, [')'], none⟩] =
      .ok (some (.infixOp ⟨.orOp, "OR".toList, none⟩
        (.infixOp ⟨.equal, ['='], none⟩ (.leaf ⟨.property, ['a'], none⟩)
          (.leaf ⟨.number, ['1'], none⟩))
        (.prefixOp ⟨.notOp, "NOT".toList, none⟩ (.prefixOp ⟨.typeIs, "TYPE_IS".toList, none⟩
          (.group (.leaf ⟨.string, ['b'], none⟩)))))) := by
  refine standard_unique_reading.1 _ _ ?_ ?_ ?_
  · exact ⟨rfl, rfl, rfl, ⟨rfl, rfl, rfl, rfl, rfl⟩, rfl, rfl, rfl, rfl, rfl⟩
  · simp [Grouped, isJoin, isItem, TokenKind.isConnective, TokenKind.isComparison]
  · exact .infixOp _ (.infixOp _ (.leaf _) (.leaf _))
      (.prefixOp _ (.prefixOp _ (.group rfl rfl (.leaf _))))

end

end Typeahead
