import Mathlib.Data.List.Induction
import Typeahead.Query.Nesting

/-!
# Parentheses and their partners

From left to right, a closing parenthesis is the partner of the latest opening one that has none
yet. `Nesting.unmatched` lists the parentheses that are left without a partner, and both counts of
open groups can be read off it. The sum of all weights is the number of openers left over less that
of closers (`balance_eq_excess`), and the backward walk tells whether an opener is left over
(`endsInside_eq`). The walk starts at the end, so its induction goes along the tokens from there,
with a balance of at most zero already passed (`rises_reverse`).

So the counts part where a closer is left over. There is none if no prefix of the tokens has more
closers than openers (`Nested`), and then they agree (`endsInside_of_nested`).
-/

namespace Typeahead

namespace Nesting

@[simp] theorem balance_nil : balance [] = 0 := rfl

@[simp] theorem balance_append (us : List Token) : ∀ ts : List Token,
    balance (ts ++ us) = balance ts + balance us
  | [] => (Int.zero_add _).symm
  | t :: ts => by
    rw [List.cons_append, balance, balance_append us ts, balance, Int.add_assoc]

@[simp] theorem balance_singleton (t : Token) : balance [t] = weight t := by
  simp [balance]

theorem balance_eq_countP (ts : List Token) : balance ts =
    ts.countP (·.kind = .openParen) - ts.countP (·.kind = .closeParen) := by
  induction ts with
  | nil => rfl
  | cons t ts ih =>
    rw [balance, ih, weight, List.countP_cons, List.countP_cons]
    split <;> simp_all <;> omega

/-! ### Matching -/

/-- The positions of the parentheses without a partner, the latest first. -/
structure Unmatched where
  openers : List Nat
  closers : List Nat
  deriving DecidableEq

/-- A closer is the partner of the latest opener that is left. -/
def Unmatched.add (u : Unmatched) (position : Nat) (t : Token) : Unmatched :=
  match t.kind, u.openers with
  | .openParen, _ => { u with openers := position :: u.openers }
  | .closeParen, [] => { u with closers := position :: u.closers }
  | .closeParen, _ :: outer => { u with openers := outer }
  | _, _ => u

/-- The parentheses that are left without a partner, read from left to right. -/
def unmatched (ts : List Token) : Unmatched :=
  ts.zipIdx.foldl (fun u e => u.add e.2 e.1) ⟨[], []⟩

theorem unmatched_concat (ts : List Token) (t : Token) :
    unmatched (ts ++ [t]) = (unmatched ts).add ts.length t := by
  simp [unmatched, List.zipIdx_append]

namespace Unmatched

variable {position : Nat} {t : Token}

theorem add_opener (h : t.kind = .openParen) (openers closers : List Nat) :
    add ⟨openers, closers⟩ position t = ⟨position :: openers, closers⟩ := by
  simp [add, h]

theorem add_closer (h : t.kind = .closeParen) (site : Nat) (openers closers : List Nat) :
    add ⟨site :: openers, closers⟩ position t = ⟨openers, closers⟩ := by
  simp [add, h]

theorem add_of_ne (ho : t.kind ≠ .openParen) (hc : t.kind ≠ .closeParen) (u : Unmatched) :
    u.add position t = u := by
  unfold add
  split <;> simp_all

/-- What one token does, and what it weighs: it opens a group, closes the latest one, is left over
as a closer, or is no parenthesis. -/
theorem add_cases (openers closers : List Nat) (position : Nat) (t : Token) :
    weight t = 1 ∧ add ⟨openers, closers⟩ position t = ⟨position :: openers, closers⟩ ∨
    (weight t = -1 ∧ ∃ site outer, openers = site :: outer ∧
      add ⟨openers, closers⟩ position t = ⟨outer, closers⟩) ∨
    (weight t = -1 ∧ openers = [] ∧ add ⟨openers, closers⟩ position t = ⟨[], position :: closers⟩) ∨
    weight t = 0 ∧ add ⟨openers, closers⟩ position t = ⟨openers, closers⟩ := by
  by_cases ho : t.kind = .openParen
  · exact .inl ⟨by simp [weight, ho], add_opener ho _ _⟩
  by_cases hc : t.kind = .closeParen
  · rcases openers with _ | ⟨site, outer⟩
    · exact .inr (.inr (.inl ⟨by simp [weight, hc], rfl, by simp [add, hc]⟩))
    · exact .inr (.inl ⟨by simp [weight, hc], site, outer, rfl, add_closer hc _ _ _⟩)
  · exact .inr (.inr (.inr ⟨by simp [weight], add_of_ne ho hc _⟩))

theorem closers_of_add {u : Unmatched} (h : (u.add position t).closers = []) :
    u.closers = [] := by
  unfold add at h
  split at h <;> simp_all

/-- The openers left over less the closers left over. -/
def excess (u : Unmatched) : Int := u.openers.length - u.closers.length

theorem excess_add (u : Unmatched) : (u.add position t).excess = u.excess + weight t := by
  obtain ⟨openers, closers⟩ := u
  obtain ⟨hw, ha⟩ | ⟨hw, site, outer, rfl, ha⟩ | ⟨hw, rfl, ha⟩ | ⟨hw, ha⟩ :=
    add_cases openers closers position t
  all_goals
    rw [ha, hw]
    simp only [excess, List.length_cons, List.length_nil]
    omega

end Unmatched

theorem balance_eq_excess (ts : List Token) : balance ts = (unmatched ts).excess := by
  induction ts using List.reverseRecOn with
  | nil => rfl
  | append_singleton ts t ih =>
    rw [balance_append, balance_singleton, unmatched_concat, Unmatched.excess_add, ih]

theorem openCount_eq (ts : List Token) :
    openCount ts = (unmatched ts).openers.length - (unmatched ts).closers.length := by
  rw [openCount, balance_eq_excess, Unmatched.excess]
  omega

/-! ### The walk backward -/

theorem rises_reverse (ts : List Token) :
    ∀ b ≤ 0, rises b ts.reverse = true ↔ 0 < b + (unmatched ts).openers.length := by
  induction ts using List.reverseRecOn with
  | nil =>
    intro b hb
    simpa [rises, unmatched] using hb
  | append_singleton ts t ih =>
    intro b hb
    rw [List.reverse_append, List.reverse_singleton, List.singleton_append, rises, unmatched_concat,
      Bool.or_eq_true, decide_eq_true_iff]
    rcases hu : unmatched ts with ⟨openers, closers⟩
    simp only [hu] at ih
    obtain ⟨hw, ha⟩ | ⟨hw, site, outer, rfl, ha⟩ | ⟨hw, rfl, ha⟩ | ⟨hw, ha⟩ :=
      Unmatched.add_cases openers closers ts.length t
    · rw [ha, hw, List.length_cons]
      -- The walk ends at this opener unless it has passed a closer too many.
      by_cases hlt : 0 < b + 1
      · exact iff_of_true (.inl hlt) (by omega)
      · rw [ih (b + 1) (by omega)]
        omega
    all_goals
      rw [ha, hw, ih _ (by omega)]
      simp only [List.length_cons, List.length_nil]
      omega

theorem endsInside_eq (ts : List Token) :
    endsInside ts = decide (0 < (unmatched ts).openers.length) := by
  rw [Bool.eq_iff_iff, endsInside, rises_reverse ts 0 (Int.le_refl 0), decide_eq_true_iff]
  omega

/-! ### Groups that are opened before they are closed -/

/-- Nowhere do closers outnumber openers. -/
def Nested (ts : List Token) : Prop := ∀ p, p <+: ts → 0 ≤ balance p

theorem nested_nil : Nested [] := by
  intro p hp
  rw [List.prefix_nil.1 hp]
  exact Int.le_of_eq balance_nil.symm

theorem nested_append_singleton {ts : List Token} {t : Token} :
    Nested (ts ++ [t]) ↔ Nested ts ∧ 0 ≤ balance (ts ++ [t]) := by
  constructor
  · intro h
    exact ⟨fun p hp => h p (hp.trans (List.prefix_append _ _)), h _ List.prefix_rfl⟩
  · rintro ⟨h, ht⟩ p hp
    rcases List.prefix_concat_iff.1 hp with rfl | hp
    · exact ht
    · exact h p hp

/-- A closer that is left over stays left over. -/
theorem nested_of_closers_eq_nil (ts : List Token) :
    (unmatched ts).closers = [] → Nested ts := by
  induction ts using List.reverseRecOn with
  | nil => exact fun _ => nested_nil
  | append_singleton ts t ih =>
    intro h
    refine nested_append_singleton.2 ⟨ih ?_, ?_⟩
    · rw [unmatched_concat] at h
      exact Unmatched.closers_of_add h
    · rw [balance_eq_excess, Unmatched.excess, h]
      simp

theorem closers_of_nested (ts : List Token) : Nested ts → (unmatched ts).closers = [] := by
  induction ts using List.reverseRecOn with
  | nil => exact fun _ => rfl
  | append_singleton ts t ih =>
    intro h
    obtain ⟨hn, hb⟩ := nested_append_singleton.1 h
    rw [balance_eq_excess, unmatched_concat] at hb
    rw [unmatched_concat]
    rcases hu : unmatched ts with ⟨openers, closers⟩
    obtain rfl : closers = [] := by simpa [hu] using ih hn
    rw [hu] at hb
    obtain ⟨-, ha⟩ | ⟨-, site, outer, rfl, ha⟩ | ⟨-, rfl, ha⟩ | ⟨-, ha⟩ :=
      Unmatched.add_cases openers [] ts.length t
    · rw [ha]
    · rw [ha]
    · rw [ha, Unmatched.excess] at hb
      simp at hb
    · rw [ha]

theorem endsInside_of_nested {ts : List Token} (h : Nested ts) :
    endsInside ts = decide (0 < balance ts) := by
  rw [endsInside_eq, balance_eq_excess, Unmatched.excess, closers_of_nested ts h]
  simp

theorem Nested.countP_le {ts : List Token} (h : Nested ts) {p : List Token} (hp : p <+: ts) :
    p.countP (·.kind = .closeParen) ≤ p.countP (·.kind = .openParen) := by
  have hb := h p hp
  rw [balance_eq_countP] at hb
  omega

theorem nested_of_countP_le {ts : List Token} (h : ∀ p, p <+: ts →
    p.countP (·.kind = .closeParen) ≤ p.countP (·.kind = .openParen)) : Nested ts := by
  intro p hp
  have := h p hp
  rw [balance_eq_countP]
  omega

/-- Each closer that is added leaves one less to be wanted. -/
theorem openCount_append_closers (ts : List Token) {added : List Token}
    (h : ∀ t ∈ added, t.kind = .closeParen) :
    openCount (ts ++ added) = openCount ts - added.length := by
  have hclosers : added.countP (·.kind = .closeParen) = added.length :=
    List.countP_eq_length.2 fun t ht => by simpa using h t ht
  have hopeners : added.countP (·.kind = .openParen) = 0 :=
    List.countP_eq_zero.2 fun t ht => by simp [h t ht]
  rw [openCount, balance_append, balance_eq_countP added, hclosers, hopeners, openCount]
  omega

/-- Both counts of open groups are told by the parentheses that are left without a partner. The end
lies inside a group if an opener is left, and the number of closers wanted is that of openers left,
less that of closers left. So a query that wants a closer ends inside a group, and the other way
round if closers nowhere outnumber openers. The closers wanted leave none wanting. -/
theorem counts_matched (ts : List Token) :
    let openers := (unmatched ts).openers.length
    let closers := (unmatched ts).closers.length
    endsInside ts = decide (0 < openers) ∧
    openCount ts = openers - closers ∧
    (0 < openCount ts → endsInside ts = true) ∧
    ((∀ before, before <+: ts →
        before.countP (·.kind = .closeParen) ≤ before.countP (·.kind = .openParen)) →
      endsInside ts = decide (0 < openCount ts)) ∧
    ∀ added : List Token, (∀ t ∈ added, t.kind = .closeParen) → added.length = openCount ts →
      openCount (ts ++ added) = 0 := by
  intro openers closers
  refine ⟨endsInside_eq ts, openCount_eq ts, fun h => ?_, fun h => ?_, fun added hk hlen => ?_⟩
  · rw [openCount_eq] at h
    rw [endsInside_eq, decide_eq_true_iff]
    omega
  · rw [endsInside_of_nested (nested_of_countP_le h), openCount]
    simp
  · rw [openCount_append_closers ts hk, hlen, Nat.sub_self]

example :
    let ts : List Token := [⟨.closeParen, [')'], none⟩, ⟨.openParen, ['('], none⟩]
    endsInside ts = true ∧ openCount ts = 0 := by
  decide

end Nesting

end Typeahead
