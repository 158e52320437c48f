import Typeahead.Proofs.TableCache

/-!
# Chains of inheritance

On the way up from a defined type one comes to a type that extends nothing, or to a parent that is
not defined, or round in a circle (`chain_or_leaves_or_circles`). In the first case the types met
are the `Chain` of the type.

A chain meets no type twice, because a type has one chain only and its parent's is shorter. So the
walks that look out for circles pass the whole of it: `Chain.lineage` finds it, `Chain.flatten`
merges the attributes along it, and a type without a definition is never met on it
(`Chain.inherits_eq_false`). Whether one type is met on the way up from another, circles or not, is
what `inherits` tells (`inherits_iff`).
-/

namespace Typeahead

namespace Definitions

variable {d d' : Definitions} {n m p : Text} {type : RecordType} {chain : List RecordType}

/-- The way up from a type to one that extends nothing: the definitions met, nearest first. -/
inductive Chain (d : Definitions) : Text → List RecordType → Prop
  | root {n : Text} {type : RecordType} : d.get? n = some type → type.parent = none →
      Chain d n [type]
  | child {n p : Text} {type : RecordType} {chain : List RecordType} : d.get? n = some type →
      type.parent = some p → Chain d p chain → Chain d n (type :: chain)

theorem parent?_eq_some : d.parent? n = some p ↔
    ∃ type, d.get? n = some type ∧ type.parent = some p :=
  Option.bind_eq_some_iff

theorem parent?_of_get? (h : d.get? n = some type) : d.parent? n = type.parent := by
  rw [parent?, h, Option.bind_some]

theorem Under.trans (h : d.Under n m) (h' : d.Under m p) : d.Under n p := by
  induction h' with
  | self => exact h
  | sub hp _ ih => exact .sub hp ih

/-! ### Chains -/

theorem Chain.unique (h : d.Chain n chain) :
    ∀ {chain' : List RecordType}, d.Chain n chain' → chain' = chain := by
  induction h with
  | root htype hroot =>
    rintro _ (⟨htype', -⟩ | ⟨htype', hp', -⟩) <;> rw [htype] at htype' <;> cases htype'
    · rfl
    · rw [hroot] at hp'
      cases hp'
  | child htype hp _ ih =>
    rintro _ (⟨htype', hroot'⟩ | ⟨htype', hp', h'⟩) <;> rw [htype] at htype' <;> cases htype'
    · rw [hp] at hroot'
      cases hroot'
    · rw [hp] at hp'
      cases hp'
      rw [ih h']

/-- More definitions leave a chain as it is. -/
theorem Chain.mono (hd : ∀ n type, d.get? n = some type → d'.get? n = some type)
    (h : d.Chain n chain) : d'.Chain n chain := by
  induction h with
  | root htype hroot => exact .root (hd _ _ htype) hroot
  | child htype hp _ ih => exact .child (hd _ _ htype) hp ih

theorem chain_congr (hd : ∀ n, d.get? n = d'.get? n) : d.Chain n chain ↔ d'.Chain n chain :=
  ⟨Chain.mono fun n _ hn => (hd n).symm.trans hn, Chain.mono fun n _ hn => (hd n).trans hn⟩

/-- A walk that has passed only types with longer chains passes the whole chain. -/
theorem Chain.lineageFrom (h : d.Chain n chain) : ∀ {seen : List Text},
    (∀ m ∈ seen, ∀ chain', d.Chain m chain' → chain.length < chain'.length) →
      d.lineageFrom seen n = some chain := by
  induction h with
  | @root n type htype hroot =>
    intro seen hseen
    have hn : n ∉ seen := fun hn => absurd (hseen n hn _ (.root htype hroot)) (by simp)
    rw [lineageFrom_eq, if_neg hn, htype]
    simp only [Option.bind_some, hroot]
  | @child n p type chain htype hp h ih =>
    intro seen hseen
    have hn : n ∉ seen := fun hn => absurd (hseen n hn _ (.child htype hp h)) (by simp)
    have hlonger : ∀ m ∈ n :: seen, ∀ chain', d.Chain m chain' →
        chain.length < chain'.length := by
      intro m hm chain' h'
      rcases List.mem_cons.1 hm with rfl | hm
      · rw [(Chain.child htype hp h).unique h']
        simp
      · exact Nat.lt_of_succ_lt (hseen m hm chain' h')
    rw [lineageFrom_eq, if_neg hn, htype]
    simp only [Option.bind_some, hp, ih hlonger, Option.map_some]

theorem Chain.lineage (h : d.Chain n chain) : d.lineage n = some chain :=
  h.lineageFrom (by simp)

/-- The attributes along a chain: those of the farthest type come first, and a nearer type replaces
them in place. -/
def merged (chain : List RecordType) : AttributeTable :=
  chain.foldr (fun type table => table.insertAll type.attributes.entries) .empty

theorem Chain.flatten (h : d.Chain n chain) : d.flatten n = some (merged chain) := by
  rw [Definitions.flatten, h.lineage, Option.map_some, List.foldl_reverse]
  rfl

theorem flatten_of_get?_eq_none (h : d.get? n = none) : d.flatten n = none := by
  rw [flatten, lineage, lineageFrom_eq, h]
  rfl

theorem inheritsFrom_eq (d : Definitions) (m : Text) (seen : List Text) (n : Text) :
    d.inheritsFrom m seen n = if n = m then true else if n ∈ seen then false else
      ((d.parent? n).map (d.inheritsFrom m (n :: seen))).getD false := by
  rw [inheritsFrom]
  split_ifs
  · rfl
  · rfl
  · unfold parent?
    split
    · next h => rw [h]; rfl
    · next type h =>
      rw [h, Option.bind_some]
      cases type.parent <;> rfl

theorem under_iff : d.Under m n ↔ n = m ∨ ∃ p, d.parent? n = some p ∧ d.Under m p := by
  constructor
  · rintro (_ | ⟨hp, hup⟩)
    · exact .inl rfl
    · exact .inr ⟨_, hp, hup⟩
  · rintro (rfl | ⟨p, hp, hup⟩)
    · exact .self
    · exact .sub hp hup

/-- The types `seen` are those from which the walk has come. A walk that comes round has met all
types on the way up. -/
theorem inheritsFrom_iff (seen : List Text)
    (hseen : ∀ x ∈ seen, x ≠ m ∧ ∀ p, d.parent? x = some p → p ∈ seen ∨ p = n) :
    d.inheritsFrom m seen n = true ↔ d.Under m n := by
  induction seen, n using inheritsFrom.induct d m with
  | case1 seen =>
    rw [inheritsFrom_eq, if_pos rfl]
    exact iff_of_true rfl .self
  | case2 seen n hne hmem =>
    rw [inheritsFrom_eq, if_neg hne, if_pos hmem]
    have hnot : ∀ {x}, d.Under m x → x ∉ seen := by
      intro x hx
      induction hx with
      | self => exact fun hm => (hseen m hm).1 rfl
      | sub hp _ ih =>
        intro hx
        rcases (hseen _ hx).2 _ hp with hmem' | rfl
        · exact ih hmem'
        · exact ih hmem
    exact iff_of_false Bool.false_ne_true fun hup => hnot hup hmem
  | case3 seen n hne hmem hnone =>
    rw [inheritsFrom_eq, under_iff, parent?, hnone]
    simp [hne]
  | case4 seen n hne hmem type htype hroot =>
    rw [inheritsFrom_eq, under_iff, parent?_of_get? htype, hroot]
    simp [hne]
  | case5 seen n hne hmem type htype p hp ih =>
    have hparent : d.parent? n = some p := (parent?_of_get? htype).trans hp
    have hseen' : ∀ x ∈ n :: seen, x ≠ m ∧ ∀ q, d.parent? x = some q → q ∈ n :: seen ∨ q = p := by
      intro x hx
      rcases List.mem_cons.1 hx with rfl | hx
      · refine ⟨hne, fun q hq => .inr ?_⟩
        rw [hparent] at hq
        exact (Option.some.inj hq).symm
      · refine ⟨(hseen x hx).1, fun q hq => .inl ?_⟩
        rcases (hseen x hx).2 q hq with hq | rfl
        · exact List.mem_cons_of_mem n hq
        · exact List.mem_cons_self
    rw [inheritsFrom_eq, under_iff, hparent]
    simp [hne, hmem, ih hseen']

/-- What is asked of the walk up is whether one type is under another, also where the way up comes
round. -/
theorem inherits_iff : d.inherits n m = true ↔ d.Under m n := inheritsFrom_iff [] (by simp)

theorem Chain.contains (h : d.Chain n chain) : d.contains n = true := by
  cases h with
  | root htype | child htype => exact OrderedMap.contains_iff.2 ⟨_, htype⟩

theorem Chain.of_under (h : d.Chain n chain) (hm : d.Under m n) :
    ∃ chain', d.Chain m chain' := by
  induction hm generalizing chain with
  | self => exact ⟨chain, h⟩
  | sub hp _ ih =>
    rcases h with ⟨htype, hroot⟩ | ⟨htype, hp', h⟩ <;> rw [parent?_of_get? htype] at hp
    · rw [hroot] at hp
      cases hp
    · rw [hp'] at hp
      cases hp
      exact ih h

theorem Chain.inherits_eq_false (h : d.Chain n chain) (hm : d.get? m = none) :
    d.inherits n m = false := by
  rw [Bool.eq_false_iff, ne_eq, inherits_iff]
  intro hup
  obtain ⟨chain', h'⟩ := h.of_under hup
  obtain ⟨type, htype⟩ := OrderedMap.contains_iff.1 h'.contains
  rw [hm] at htype
  cases htype

/-! ### Ways up that do not end -/

/-- On the way up from a type some type extends one that is not defined. -/
def Leaves (d : Definitions) (n : Text) : Prop :=
  ∃ m p, d.Under m n ∧ d.parent? m = some p ∧ d.contains p = false

/-- The way up from a type comes round in a circle. -/
def Circles (d : Definitions) (n : Text) : Prop :=
  ∃ m p, d.Under m n ∧ d.parent? m = some p ∧ d.Under m p

/-- A way up that comes round never ends: every type on it extends another. -/
theorem Circles.exists_parent {x : Text} (h : d.Circles n) (hx : d.Under x n) :
    ∃ p, d.parent? x = some p := by
  obtain ⟨m, p, hm, hp, hup⟩ := h
  -- Every type on the way has a parent from which the way leads to `m` again.
  have hnext : ∀ {x : Text}, d.Under m x → ∃ q, d.parent? x = some q ∧ d.Under m q := by
    intro x hx
    cases hx with
    | self => exact ⟨p, hp, hup⟩
    | sub hq hmq => exact ⟨_, hq, hmq⟩
  induction hx with
  | self =>
    obtain ⟨q, hq, -⟩ := hnext hm
    exact ⟨q, hq⟩
  | sub hq _ ih =>
    obtain ⟨q, hq', hmq⟩ := hnext hm
    rw [hq] at hq'
    cases hq'
    exact ih hmq

theorem Circles.contains {x : Text} (h : d.Circles n) (hx : d.Under x n) :
    d.contains x = true := by
  obtain ⟨p, hp⟩ := h.exists_parent hx
  obtain ⟨type, htype, -⟩ := parent?_eq_some.1 hp
  rw [OrderedMap.contains, htype]
  rfl

/-- The three ways up. The types `seen` are those from which the walk has come. -/
theorem chain_or_leaves_or_circles_from (seen : List Text)
    (hseen : ∀ m ∈ seen, ∃ p, d.parent? m = some p ∧ d.Under n p)
    (hn : ∃ type, d.get? n = some type) :
    (∃ chain, d.Chain n chain) ∨ d.Leaves n ∨ d.Circles n := by
  induction seen, n using lineageFrom.induct (d := d) with
  | case1 seen n hmem =>
    obtain ⟨p, hp, hup⟩ := hseen n hmem
    exact .inr (.inr ⟨n, p, .self, hp, hup⟩)
  | case2 seen n hmem hnone =>
    obtain ⟨type, htype⟩ := hn
    rw [hnone] at htype
    cases htype
  | case3 seen n hmem type htype hroot => exact .inl ⟨_, .root htype hroot⟩
  | case4 seen n hmem type htype p hp ih =>
    have hparent : d.parent? n = some p := (parent?_of_get? htype).trans hp
    have hup : d.Under p n := .sub hparent .self
    rcases hget : d.get? p with _ | above
    · exact .inr (.inl ⟨n, p, .self, hparent, by rw [OrderedMap.contains, hget]; rfl⟩)
    · have hseen' : ∀ m ∈ n :: seen, ∃ q, d.parent? m = some q ∧ d.Under p q := by
        intro m hm
        rcases List.mem_cons.1 hm with rfl | hm
        · exact ⟨p, hparent, .self⟩
        · obtain ⟨q, hq, hqn⟩ := hseen m hm
          exact ⟨q, hq, hup.trans hqn⟩
      obtain ⟨chain, h⟩ | ⟨m, q, hm, hq, hnone⟩ | ⟨m, q, hm, hq, hmq⟩ := ih hseen' ⟨above, hget⟩
      · exact .inl ⟨_, .child htype hp h⟩
      · exact .inr (.inl ⟨m, q, hm.trans hup, hq, hnone⟩)
      · exact .inr (.inr ⟨m, q, hm.trans hup, hq, hmq⟩)

/-- The way up from a defined type ends, leaves the definitions or comes round in a circle. -/
theorem chain_or_leaves_or_circles (h : d.get? n = some type) :
    (∃ chain, d.Chain n chain) ∨ d.Leaves n ∨ d.Circles n :=
  chain_or_leaves_or_circles_from [] (by simp) ⟨type, h⟩

end Definitions

end Typeahead
