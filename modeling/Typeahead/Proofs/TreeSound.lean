import Mathlib.Tactic.SplitIfs
import Typeahead.Grammar.Standard
import Typeahead.Query.Tree

/-!
# What a query tree says about its tokens

A tree read from tokens gives them back in order (`Tree.Yields`), every operator in it has operands
of the types it wants (`Tree.WellTyped`), and no operator stands where a looser or earlier one
should (`Tree.Stratified`).

The reader keeps constructs open, and what it has read is theirs and the held operand's together
(`Holds`). Closing a construct passes the same tokens on to the one outside
(`Holds.close_prefixOp`, `Holds.close_infixOp`), so a token read keeps the account
(`Stage.read_sound`), and so does a whole query (`Stage.readAll_sound`). A construct is closed only
by a token that cannot continue its operand. That is why an operator never takes as its left operand
something whose right edge would have taken the operator first.
-/

namespace Typeahead

namespace Grammar

/-- What a kind of token evaluates to. -/
def eval? (g : Grammar) (k : TokenKind) : Option ValueType := (g.get? k).bind Rule.eval

/-- What it wants on its left. -/
def left? (g : Grammar) (k : TokenKind) : Option ValueType := (g.get? k).bind Rule.left

/-- What it wants on its right. -/
def right? (g : Grammar) (k : TokenKind) : Option ValueType := (g.get? k).bind Rule.right

/-- The power with which an operator holds its left operand, zero for one without. -/
def leftPower (g : Grammar) (k : TokenKind) : Nat := (g.left? k).elim 0 ValueType.power

/-- The power of what an operator wants on its right, zero for one that wants nothing. -/
def rightPower (g : Grammar) (k : TokenKind) : Nat := (g.right? k).elim 0 ValueType.power

variable {g : Grammar} {k : TokenKind}

theorem any_isLeaf : (g.get? k).any Rule.isLeaf =
    ((g.eval? k).isSome && (g.left? k).isNone && (g.right? k).isNone) := by
  unfold eval? left? right?
  cases g.get? k <;> rfl

theorem any_isPrefixOp : (g.get? k).any Rule.isPrefixOp =
    ((g.eval? k).isSome && (g.left? k).isNone && (g.right? k).isSome) := by
  unfold eval? left? right?
  cases g.get? k <;> rfl

theorem any_isInfixOp : (g.get? k).any Rule.isInfixOp =
    ((g.eval? k).isSome && (g.left? k).isSome && (g.right? k).isSome) := by
  unfold eval? left? right?
  cases g.get? k <;> rfl

theorem any_isPostfixOp : (g.get? k).any Rule.isPostfixOp =
    ((g.eval? k).isSome && (g.left? k).isSome && (g.right? k).isNone) := by
  unfold eval? left? right?
  cases g.get? k <;> rfl

/-- A token continues an operand exactly if its rule wants something on the left and gives a
value. -/
theorem continuation?_eq_some {c : Continuation} :
    g.continuation? k = some c ↔
      g.left? k = some c.left ∧ g.right? k = c.right ∧ g.eval? k = some c.eval := by
  obtain ⟨left, right, eval⟩ := c
  unfold continuation? eval? left? right?
  rcases g.get? k with _ | ⟨e, l, r, _, _, _⟩
  · simp
  · rcases l with _ | l <;> rcases e with _ | e <;> simp

theorem continuation?_eq_none (h : g.eval? k = none) :
    g.continuation? k = none := by
  rcases hc : g.continuation? k with _ | c
  · rfl
  · rw [(continuation?_eq_some.1 hc).2.2] at h
    cases h

end Grammar

namespace Tree

variable (g : Grammar)

/-- The tokens are those of the tree in order, each group between two parentheses. -/
inductive Yields : Tree → List Token → Prop
  | leaf (token : Token) : Yields (.leaf token) [token]
  | group {inner : Tree} {ts : List Token} {opening closing : Token} :
      opening.kind = .openParen → closing.kind = .closeParen → Yields inner ts →
      Yields (.group inner) (opening :: (ts ++ [closing]))
  | prefixOp {operand : Tree} {ts : List Token} (operator : Token) :
      Yields operand ts → Yields (.prefixOp operator operand) (operator :: ts)
  | infixOp {left right : Tree} {ls rs : List Token} (operator : Token) :
      Yields left ls → Yields right rs →
      Yields (.infixOp operator left right) (ls ++ operator :: rs)
  | postfixOp {operand : Tree} {ts : List Token} (operator : Token) :
      Yields operand ts → Yields (.postfixOp operator operand) (ts ++ [operator])

/-- What the tree evaluates to: its leaf or its outermost operator says so, and a group has the
type of what it encloses. -/
def type? : Tree → Option ValueType
  | .group inner => inner.type?
  | .leaf token | .prefixOp token _ | .infixOp token _ _ | .postfixOp token _ => g.eval? token.kind

/-- Every leaf is a value, and every operator stands with as many operands as it wants, of the
types it wants. -/
def WellTyped : Tree → Prop
  | .leaf token => (g.get? token.kind).any Rule.isLeaf
  | .group inner => inner.WellTyped
  | .prefixOp operator operand =>
    (g.get? operator.kind).any Rule.isPrefixOp ∧ operand.type? g = g.right? operator.kind ∧
      operand.WellTyped
  | .infixOp operator left right =>
    (g.get? operator.kind).any Rule.isInfixOp ∧ left.type? g = g.left? operator.kind ∧
      right.type? g = g.right? operator.kind ∧ left.WellTyped ∧ right.WellTyped
  | .postfixOp operator operand =>
    (g.get? operator.kind).any Rule.isPostfixOp ∧ operand.type? g = g.left? operator.kind ∧
      operand.WellTyped

/-- Every operator on the left edge, outside groups, has at least power `n`: where one of lower
power ends the operand, the tree is still a single operand. -/
def LeftAtLeast (n : Nat) : Tree → Prop
  | .leaf _ | .group _ | .prefixOp _ _ => True
  | .infixOp operator left _ => n ≤ g.leftPower operator.kind ∧ left.LeftAtLeast n
  | .postfixOp operator operand => n ≤ g.leftPower operator.kind ∧ operand.LeftAtLeast n

/-- Every operator on the right edge, outside groups, holds its last operand with at least power
`n`: an operator of power `n` behind the tree takes all of it as its left operand. -/
def RightAtLeast (n : Nat) : Tree → Prop
  | .leaf _ | .group _ | .postfixOp _ _ => True
  | .prefixOp operator operand => n ≤ g.rightPower operator.kind ∧ operand.RightAtLeast n
  | .infixOp operator _ right => n ≤ g.leftPower operator.kind ∧ right.RightAtLeast n

/-- Operands are as tight as their operator demands. The right operand of an operator has only
operators of greater power on its left edge, a left operand only such on its right edge as do not
give way to the operator, and the operand of a prefix operator is tighter than what the operator
wants: a comparison where it wants a boolean, a single item where it wants a primitive. -/
def Stratified : Tree → Prop
  | .leaf _ => True
  | .group inner => inner.Stratified
  | .prefixOp operator operand =>
    operand.LeftAtLeast g (g.rightPower operator.kind + 1) ∧ operand.Stratified
  | .infixOp operator left right =>
    left.RightAtLeast g (g.leftPower operator.kind) ∧
      right.LeftAtLeast g (g.leftPower operator.kind + 1) ∧ left.Stratified ∧ right.Stratified
  | .postfixOp operator operand =>
    operand.RightAtLeast g (g.leftPower operator.kind) ∧ operand.Stratified

end Tree

/-- A complete operand of a known type, none of whose operators outside groups is looser than
`floor`. -/
structure Operand (g : Grammar) (floor : Nat) (tree : Tree) (type : ValueType)
    (tokens : List Token) : Prop where
  yields : tree.Yields tokens
  typed : tree.WellTyped g
  type_eq : tree.type? g = some type
  stratified : tree.Stratified g
  left : tree.LeftAtLeast g floor

namespace Operand

variable {g : Grammar} {floor : Nat} {tree left : Tree} {type wants gives : ValueType}
  {operator : Token} {tokens ls : List Token}

theorem group {m n : Nat} {opening closing : Token} (ho : opening.kind = .openParen)
    (hc : closing.kind = .closeParen) (h : Operand g m tree type tokens) :
    Operand g n (.group tree) type (opening :: (tokens ++ [closing])) :=
  ⟨.group ho hc h.yields, h.typed, h.type_eq, h.stratified, trivial⟩

theorem prefixOp (hl : g.left? operator.kind = none) (hr : g.right? operator.kind = some wants)
    (he : g.eval? operator.kind = some gives)
    (h : Operand g (wants.power + 1) tree wants tokens) :
    Operand g floor (.prefixOp operator tree) gives (operator :: tokens) := by
  refine ⟨.prefixOp operator h.yields, ?_, he, ?_, trivial⟩
  · exact ⟨by simp [Grammar.any_isPrefixOp, hl, hr, he], h.type_eq.trans hr.symm, h.typed⟩
  · have hp : g.rightPower operator.kind = wants.power := by simp [Grammar.rightPower, hr]
    exact ⟨hp ▸ h.left, h.stratified⟩

theorem infixOp (hl : g.left? operator.kind = some type)
    (hr : g.right? operator.kind = some wants) (he : g.eval? operator.kind = some gives)
    (hleft : Operand g floor left type ls) (hright : left.RightAtLeast g type.power)
    (hfloor : floor ≤ type.power) (h : Operand g (type.power + 1) tree wants tokens) :
    Operand g floor (.infixOp operator left tree) gives (ls ++ operator :: tokens) := by
  have hp : g.leftPower operator.kind = type.power := by simp [Grammar.leftPower, hl]
  refine ⟨.infixOp operator hleft.yields h.yields, ?_, he, ?_, ?_⟩
  · exact ⟨by simp [Grammar.any_isInfixOp, hl, hr, he], hleft.type_eq.trans hl.symm,
      h.type_eq.trans hr.symm, hleft.typed, h.typed⟩
  · exact ⟨hp ▸ hright, hp ▸ h.left, hleft.stratified, h.stratified⟩
  · exact ⟨hp ▸ hfloor, hleft.left⟩

theorem postfixOp (hl : g.left? operator.kind = some type) (hr : g.right? operator.kind = none)
    (he : g.eval? operator.kind = some gives) (h : Operand g floor tree type tokens)
    (hright : tree.RightAtLeast g type.power) (hfloor : floor ≤ type.power) :
    Operand g floor (.postfixOp operator tree) gives (tokens ++ [operator]) := by
  have hp : g.leftPower operator.kind = type.power := by simp [Grammar.leftPower, hl]
  refine ⟨.postfixOp operator h.yields, ?_, he, ?_, ?_⟩
  · exact ⟨by simp [Grammar.any_isPostfixOp, hl, hr, he], h.type_eq.trans hl.symm, h.typed⟩
  · exact ⟨hp ▸ hright, h.stratified⟩
  · exact ⟨hp ▸ hfloor, h.left⟩

end Operand

/-- The tokens that the open constructs, innermost first, stand for. The position of a construct is
the number of tokens before its operator. -/
inductive Opened (g : Grammar) : List Frame → List Token → Prop
  | nil : Opened g [] []
  | group {outer : List Frame} {ts : List Token} {opening : Token} :
      Opened g outer ts → opening.kind = .openParen →
      Opened g (.group ts.length :: outer) (ts ++ [opening])
  | prefixOp {outer : List Frame} {ts : List Token} {operator : Token} {wants gives : ValueType} :
      Opened g outer ts → g.left? operator.kind = none → g.right? operator.kind = some wants →
      g.eval? operator.kind = some gives →
      Opened g (.prefixOp ts.length operator wants gives :: outer) (ts ++ [operator])
  | infixOp {outer : List Frame} {ts us : List Token} {operator : Token} {left : Tree}
      {type wants gives : ValueType} :
      Opened g outer ts → Operand g (Frame.floor outer) left type us →
      left.RightAtLeast g type.power → Frame.floor outer ≤ type.power →
      g.left? operator.kind = some type → g.right? operator.kind = some wants →
      g.eval? operator.kind = some gives →
      Opened g (.infixOp (ts ++ us).length operator left type.power wants gives :: outer)
        (ts ++ us ++ [operator])

/-- The tokens are those of the open constructs and of the operand held inside them. -/
def Holds (g : Grammar) (frames : List Frame) (tree : Tree) (type : ValueType)
    (tokens : List Token) : Prop :=
  ∃ before inner, tokens = before ++ inner ∧ Opened g frames before ∧
    Operand g (Frame.floor frames) tree type inner

namespace Holds

variable {g : Grammar} {outer : List Frame} {tree left : Tree} {type wants gives : ValueType}
  {operator : Token} {tokens : List Token} {position power : Nat}

theorem close_group (h : Holds g (.group position :: outer) tree type tokens) {closing : Token}
    (hc : closing.kind = .closeParen) :
    Holds g outer (.group tree) type (tokens ++ [closing]) := by
  obtain ⟨before, inner, rfl, ho, hi⟩ := h
  cases ho with
  | group ho hk => exact ⟨_, _, by simp, ho, hi.group hk hc⟩

theorem close_prefixOp
    (h : Holds g (.prefixOp position operator wants gives :: outer) tree wants tokens) :
    Holds g outer (.prefixOp operator tree) gives tokens := by
  obtain ⟨before, inner, rfl, ho, hi⟩ := h
  cases ho with
  | prefixOp ho hl hr he => exact ⟨_, _, by simp, ho, hi.prefixOp hl hr he⟩

theorem close_infixOp
    (h : Holds g (.infixOp position operator left power wants gives :: outer) tree wants tokens) :
    Holds g outer (.infixOp operator left tree) gives tokens := by
  obtain ⟨before, inner, rfl, ho, hi⟩ := h
  cases ho with
  | infixOp ho hleft hright hfloor hl hr he =>
    exact ⟨_, _, by simp, ho, hleft.infixOp hl hr he hright hfloor hi⟩

end Holds

namespace Stage

variable {g : Grammar}

/-- What is known of a stage after reading `tokens`. An operand that is held between two tokens is a
leaf, a group or a postfix tree, on whose right edge nothing is left to continue. -/
def Sound (g : Grammar) : Stage → List Token → Prop
  | awaiting frames, tokens => Opened g frames tokens
  | holding frames tree type, tokens =>
    Holds g frames tree type tokens ∧ ∀ n, tree.RightAtLeast g n

theorem readOperand_sound {frames : List Frame} {tokens : List Token} {token : Token} {s : Stage}
    (ho : Opened g frames tokens) (h : readOperand g tokens.length token frames = .ok s) :
    s.Sound g (tokens ++ [token]) := by
  unfold readOperand at h
  split at h
  · cases h
  · rename_i hk
    cases h
    exact .group ho hk
  · cases h
  · rename_i kind hu hop hcl
    split at h
    · rename_i r e w hr
      cases h
      refine .prefixOp ho ?_ ?_ ?_ <;> simp [Grammar.left?, Grammar.right?, Grammar.eval?, hr]
    · rename_i e hr
      cases h
      refine ⟨⟨tokens, [token], rfl, ho, .leaf token, ?_, ?_, trivial, trivial⟩, fun _ => trivial⟩
      · simp [Tree.WellTyped, hr, Rule.isLeaf]
      · simp [Tree.type?, Grammar.eval?, hr]
    · cases h

theorem readOperator_sound {frames : List Frame} {tree : Tree} {type : ValueType}
    {tokens : List Token} {token : Token} {c : Continuation} {s : Stage}
    (hh : Holds g frames tree type tokens) (hc : g.continuation? token.kind = some c)
    (hfloor : Frame.floor frames ≤ c.left.power) (hright : tree.RightAtLeast g c.left.power)
    (h : readOperator tokens.length token c frames tree type = .ok s) :
    s.Sound g (tokens ++ [token]) := by
  obtain ⟨hl, hr, he⟩ := Grammar.continuation?_eq_some.1 hc
  obtain ⟨before, inner, rfl, ho, hi⟩ := hh
  unfold readOperator at h
  split_ifs at h with hty
  · subst hty
    split at h
    · rename_i wants hw
      cases h
      rw [hw] at hr
      exact .infixOp ho hi hright hfloor hl hr he
    · rename_i hw
      cases h
      rw [hw] at hr
      exact ⟨⟨before, _, by simp, ho, hi.postfixOp hl hr he hright hfloor⟩, fun _ => trivial⟩

/-- A token offered to an operand that its right edge leaves to it, and then, construct by
construct, to what closing makes of the operand: a construct is closed because the token's power is
no greater than its own. -/
theorem readAfter_sound {tokens : List Token} {token : Token} :
    ∀ (frames : List Frame) {tree : Tree} {type : ValueType} {s : Stage},
      Holds g frames tree type tokens →
      (∀ c, g.continuation? token.kind = some c → tree.RightAtLeast g c.left.power) →
      readAfter g tokens.length token frames tree type = .ok s → s.Sound g (tokens ++ [token])
  | frames, tree, type, s, hh, hright, h => by
    unfold readAfter at h
    split at h
    · rename_i c hc
      rw [Option.filter_eq_some_iff] at hc
      obtain ⟨hc, hfloor⟩ := hc
      exact readOperator_sound hh hc (by simpa using hfloor) (hright c hc) h
    · rename_i hc
      have hlt : ∀ c, g.continuation? token.kind = some c → c.left.power < Frame.floor frames := by
        intro c hk
        simpa [Option.filter_eq_none_iff, hk] using hc
      split at h
      · cases h
      · split_ifs at h with hk
        cases h
        exact ⟨hh.close_group hk, fun _ => trivial⟩
      · rename_i site operator wants gives outer
        split_ifs at h with hty
        subst hty
        refine readAfter_sound outer hh.close_prefixOp (fun c hk => ⟨?_, hright c hk⟩) h
        obtain ⟨_, _, _, ho, _⟩ := hh
        cases ho with
        | prefixOp _ _ hr _ =>
          have := hlt c hk
          simp only [Frame.floor] at this
          simp only [Grammar.rightPower, hr, Option.elim_some]
          omega
      · rename_i site operator left power wants gives outer
        split_ifs at h with hty
        subst hty
        refine readAfter_sound outer hh.close_infixOp (fun c hk => ⟨?_, hright c hk⟩) h
        obtain ⟨_, _, _, ho, _⟩ := hh
        cases ho with
        | infixOp _ _ _ _ hl _ _ =>
          have := hlt c hk
          simp only [Frame.floor] at this
          simp only [Grammar.leftPower, hl, Option.elim_some]
          omega

theorem read_sound {tokens : List Token} {token : Token} :
    ∀ {s s' : Stage}, s.Sound g tokens → s.read g tokens.length token = .ok s' →
      s'.Sound g (tokens ++ [token])
  | awaiting _, _, ho, h => readOperand_sound ho h
  | holding frames _ _, _, ⟨hh, hright⟩, h => readAfter_sound frames hh (fun _ _ => hright _) h

theorem readAll_sound : ∀ (rest : List Token) {tokens : List Token} {s s' : Stage},
    s.Sound g tokens → s.readAll g tokens.length rest = .ok s' → s'.Sound g (tokens ++ rest)
  | [], tokens, s, s', hs, h => by
    cases h
    simpa using hs
  | token :: rest, tokens, s, s', hs, h => by
    simp only [readAll] at h
    split at h
    · rename_i next hn
      have := readAll_sound rest (read_sound hs hn) (by simpa using h)
      simpa using this
    · cases h

theorem closeAll_sound {tokens : List Token} : ∀ (frames : List Frame) {tree t : Tree}
    {type : ValueType}, Holds g frames tree type tokens → closeAll frames tree type = .ok t →
      ∃ v, Operand g 0 t v tokens
  | [], tree, t, type, hh, h => by
    cases h
    obtain ⟨_, inner, rfl, ho, hi⟩ := hh
    cases ho
    exact ⟨type, hi⟩
  | .group _ :: _, tree, t, type, hh, h => by cases h
  | .prefixOp _ _ _ _ :: outer, tree, t, type, hh, h => by
    unfold closeAll at h
    split_ifs at h with hty
    subst hty
    exact closeAll_sound outer hh.close_prefixOp h
  | .infixOp _ _ _ _ _ _ :: outer, tree, t, type, hh, h => by
    unfold closeAll at h
    split_ifs at h with hty
    subst hty
    exact closeAll_sound outer hh.close_infixOp h

end Stage

namespace Tree

/-- A query with a tree is one whose reading ends with an operand that closes every construct. -/
theorem ofTokens_eq_some {g : Grammar} {tokens : List Token} {t : Tree} :
    ofTokens g tokens = .ok (some t) ↔ ∃ frames tree type,
      (Stage.awaiting []).readAll g 0 tokens = .ok (.holding frames tree type) ∧
        Stage.closeAll frames tree type = .ok t := by
  unfold ofTokens
  rcases hl : tokens.getLast? with _ | last
  · rw [List.getLast?_eq_none_iff] at hl
    subst hl
    simp [Stage.readAll]
  · rcases (Stage.awaiting []).readAll g 0 tokens with e | frames | ⟨frames, tree, type⟩
    · simp
    · simp [Stage.finish, Except.map]
    · simp only [Stage.finish, Except.ok.injEq, Stage.holding.injEq]
      constructor
      · intro h
        refine ⟨frames, tree, type, ⟨rfl, rfl, rfl⟩, ?_⟩
        rcases hc : Stage.closeAll frames tree type with e | t' <;> rw [hc] at h
        · cases h
        · cases h
          rfl
      · rintro ⟨_, _, _, ⟨rfl, rfl, rfl⟩, h⟩
        rw [h]
        rfl

theorem isOk_ofTokens {g : Grammar} {tokens : List Token} :
    (ofTokens g tokens).isOk = true ↔ tokens = [] ∨ ∃ t, ofTokens g tokens = .ok (some t) := by
  constructor
  · intro h
    rcases ho : ofTokens g tokens with e | _ | t
    · rw [ho] at h
      cases h
    · left
      unfold ofTokens at ho
      split at ho
      · exact List.getLast?_eq_none_iff.1 ‹_›
      · split at ho
        · rename_i s _
          rcases hf : s.finish _ with e | t <;> rw [hf] at ho <;> cases ho
        · cases ho
    · exact .inr ⟨t, rfl⟩
  · rintro (rfl | ⟨t, h⟩)
    · rfl
    · rw [h]
      rfl

theorem ofTokens_sound {g : Grammar} {tokens : List Token} {t : Tree}
    (h : ofTokens g tokens = .ok (some t)) : ∃ v, Operand g 0 t v tokens := by
  obtain ⟨frames, tree, type, hr, hc⟩ := ofTokens_eq_some.1 h
  have hs : (Stage.holding frames tree type).Sound g ([] ++ tokens) :=
    Stage.readAll_sound (s := .awaiting []) tokens Opened.nil hr
  exact Stage.closeAll_sound frames hs.1 hc

/-- Whatever the grammar, the tree of a query has exactly the query's tokens in order, is well typed
and respects the powers of its operators. -/
theorem ofTokens_faithful {g : Grammar} {tokens : List Token} {t : Tree}
    (h : ofTokens g tokens = .ok (some t)) : t.Yields tokens ∧ t.WellTyped g ∧ t.Stratified g := by
  obtain ⟨v, ht⟩ := ofTokens_sound h
  exact ⟨ht.yields, ht.typed, ht.stratified⟩

/-- `NOT a = 1 AND (b ANY)`, in a language where `ANY` stands behind its operand. -/
theorem ofTokens_faithful_postfix :
    let g := Grammar.standard.insert .any (Rule.operator (some .primitive) none)
    let tokens : List Token := [⟨.notOp, "NOT".toList, none⟩, ⟨.property, ['a'], none⟩,
      ⟨.equal, ['='], none⟩, ⟨.number, ['1'], none⟩, ⟨.andOp, "AND".toList, none⟩,
      ⟨.openParen, ['('], none⟩, ⟨.property, ['b'], none⟩, ⟨.any, "ANY".toList, none⟩,
      ⟨.closeParen, [')'], none⟩]
    let t : Tree := .infixOp ⟨.andOp, "AND".toList, none⟩
      (.prefixOp ⟨.notOp, "NOT".toList, none⟩ (.infixOp ⟨.equal, ['='], none⟩
        (.leaf ⟨.property, ['a'], none⟩) (.leaf ⟨.number, ['1'], none⟩)))
      (.group (.postfixOp ⟨.any, "ANY".toList, none⟩ (.leaf ⟨.property, ['b'], none⟩)))
    ofTokens g tokens = .ok (some t) ∧ t.Yields tokens ∧ t.WellTyped g ∧ t.Stratified g := by
  intro g tokens t
  have h : ofTokens g tokens = .ok (some t) := by rfl
  exact ⟨h, ofTokens_faithful h⟩

end Tree

end Typeahead
