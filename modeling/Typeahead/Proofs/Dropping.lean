import Mathlib.Tactic.SplitIfs
import Typeahead.Schema.Registry

/-!
# Dropping the tables under a type

To drop the tables under a type is to go down from it, subtype by subtype, while the definitions
only say which type extends which. It is done in rounds: a type that has been dealt with is passed
over, and from any other the table is dropped and its subtypes are to come (`Registry.Round`).

A type comes once for the type that it extends, so the rounds come to an end after as many as there
are types that extend one of those dealt with, and one for the type itself (`Registry.Rounds.count`).
What has been dealt with by then is closed under subtypes, and it never goes beyond the types under
the first one (`Registry.Sweep.Sound`). So just these have lost their tables
(`Registry.dropTables_rounds`, `Registry.invalidate_exact`), also where the way up from a type comes
round in a circle or leaves the definitions.
-/

namespace Typeahead

namespace Definitions

variable {d : Definitions} {name n p : Text}

/-- The types from which the way up leads to `ancestor`, that one included. -/
inductive Under (d : Definitions) (ancestor : Text) : Text → Prop
  | self : Under d ancestor ancestor
  | sub {n p : Text} : d.parent? n = some p → Under d ancestor p → Under d ancestor n

theorem mem_subtypes_iff : n ∈ d.subtypes p ↔ d.parent? n = some p := by
  simp only [subtypes, List.mem_map, List.mem_filter, decide_eq_true_eq, parent?,
    Option.bind_eq_some_iff]
  constructor
  · rintro ⟨⟨n, type⟩, ⟨hm, hp⟩, rfl⟩
    exact ⟨type, OrderedMap.get?_eq_some_of_mem hm, hp⟩
  · rintro ⟨type, htype, hp⟩
    exact ⟨(n, type), ⟨OrderedMap.mem_entries_of_get? htype, hp⟩, rfl⟩

/-- How many types extend one of these names. -/
def countExtending (d : Definitions) (names : List Text) : Nat :=
  d.entries.countP fun e => e.2.parent.any names.contains

theorem countExtending_nil (d : Definitions) : d.countExtending [] = 0 := by
  refine List.countP_eq_zero.2 fun e _ => ?_
  cases e.2.parent <;> simp

theorem countExtending_le_size (d : Definitions) (names : List Text) :
    d.countExtending names ≤ d.size :=
  List.countP_le_length

theorem countExtending_cons {names : List Text} (h : name ∉ names) :
    d.countExtending (name :: names) = (d.subtypes name).length + d.countExtending names := by
  unfold countExtending subtypes
  rw [List.length_map, ← List.countP_eq_length_filter]
  induction d.entries with
  | nil => rfl
  | cons e es ih =>
    rw [List.countP_cons, List.countP_cons, List.countP_cons, ih]
    rcases he : e.2.parent with _ | p
    · simp
    -- A type has one parent, so it is counted on one side only.
    · by_cases hp : p = name
      · simp [hp, h]
        omega
      · simp [hp]
        omega

end Definitions

namespace Registry

/-- The work of dropping tables: the types dealt with, the tables left and the types to come. -/
structure Sweep where
  seen : List Text
  cache : TableCache
  pending : List Text

/-- A round deals with the next type. -/
inductive Round (d : Definitions) : Sweep → Sweep → Prop
  | pass {seen pending : List Text} {cache : TableCache} {name : Text} : name ∈ seen →
      Round d ⟨seen, cache, name :: pending⟩ ⟨seen, cache, pending⟩
  | drop {seen pending : List Text} {cache : TableCache} {name : Text} : name ∉ seen →
      Round d ⟨seen, cache, name :: pending⟩
        ⟨name :: seen, cache.erase name, d.subtypes name ++ pending⟩

/-- A number of rounds, one after the other. -/
inductive Rounds (d : Definitions) : Nat → Sweep → Sweep → Prop
  | zero (s : Sweep) : Rounds d 0 s s
  | succ {k : Nat} {s s' s'' : Sweep} : Round d s s' → Rounds d k s' s'' → Rounds d (k + 1) s s''

variable {d : Definitions} {cache : TableCache} {s s' : Sweep} {name n : Text} {k : Nat}

theorem exists_rounds (d : Definitions) (seen : List Text) (cache : TableCache)
    (pending : List Text) : ∃ k dropped,
      Rounds d k ⟨seen, cache, pending⟩ ⟨dropped, dropTables d seen cache pending, []⟩ := by
  fun_induction dropTables with
  | case1 seen cache => exact ⟨0, seen, .zero _⟩
  | case2 seen cache name pending hseen ih =>
    obtain ⟨k, dropped, hk⟩ := ih
    exact ⟨k + 1, dropped, .succ (.pass hseen) hk⟩
  | case3 seen cache name pending hseen ih =>
    obtain ⟨k, dropped, hk⟩ := ih
    exact ⟨k + 1, dropped, .succ (.drop hseen) hk⟩

/-! ### How many rounds there are -/

theorem Round.count (h : Round d s s') :
    s'.pending.length + 1 + d.countExtending s.seen =
      s.pending.length + d.countExtending s'.seen := by
  cases h with
  | pass => simp
  | drop hseen =>
    simp only [Definitions.countExtending_cons hseen, List.length_append, List.length_cons]
    omega

/-- A round is for a type that was to come at first, or for one that extends a type dealt with
since. -/
theorem Rounds.count (h : Rounds d k s s') :
    s'.pending.length + k + d.countExtending s.seen =
      s.pending.length + d.countExtending s'.seen := by
  induction h with
  | zero => omega
  | succ hround _ ih =>
    have := hround.count
    omega

/-! ### Which tables are dropped -/

/-- A type that has been dealt with or is to come. -/
def Sweep.Knows (s : Sweep) (n : Text) : Prop := n ∈ s.seen ∨ n ∈ s.pending

theorem Round.knows (h : Round d s s') (hn : s.Knows n) : s'.Knows n := by
  cases h with
  | pass hseen =>
    rcases hn with hn | hn
    · exact .inl hn
    · rcases List.mem_cons.1 hn with rfl | hn
      · exact .inl hseen
      · exact .inr hn
  | drop =>
    simp only [Sweep.Knows, List.mem_cons, List.mem_append] at hn ⊢
    rcases hn with hn | hn | hn <;> simp [hn]

/-- What holds of the work at any time: only types under `name` are known, `name` is known and so
are the subtypes of the types dealt with, and of all tables just those of the types dealt with are
gone. -/
structure Sweep.Sound (d : Definitions) (cache : TableCache) (name : Text) (s : Sweep) : Prop where
  under : ∀ n, s.Knows n → d.Under name n
  first : s.Knows name
  subtypes : ∀ p ∈ s.seen, ∀ n ∈ d.subtypes p, s.Knows n
  cache : s.cache.entries = cache.entries.filter (·.1 ∉ s.seen)

theorem Round.sound (h : Round d s s') (hs : s.Sound d cache name) : s'.Sound d cache name := by
  have hknows : ∀ {n}, s.Knows n → s'.Knows n := h.knows
  obtain ⟨hunder, hfirst, hsubtypes, hcache⟩ := hs
  cases h with
  | @pass _ _ _ m =>
    refine ⟨fun n hn => hunder n ?_, hknows hfirst, fun p hp n hn => hknows (hsubtypes p hp n hn),
      hcache⟩
    exact hn.imp_right (List.mem_cons_of_mem m)
  | @drop _ _ _ m =>
    have hm : d.Under name m := hunder m (.inr List.mem_cons_self)
    -- What is known now and was not before extends `m`.
    refine ⟨fun n hn => ?_, hknows hfirst, fun p hp n hn => ?_, ?_⟩
    · simp only [Sweep.Knows, List.mem_cons, List.mem_append] at hn
      rcases hn with (rfl | hn) | hn | hn
      · exact hm
      · exact hunder n (.inl hn)
      · exact .sub (Definitions.mem_subtypes_iff.1 hn) hm
      · exact hunder n (.inr (List.mem_cons_of_mem m hn))
    · rcases List.mem_cons.1 hp with rfl | hp
      · exact .inr (List.mem_append_left _ hn)
      · exact hknows (hsubtypes p hp n hn)
    · rw [OrderedMap.entries_erase, hcache, List.filter_filter]
      congr 1
      funext e
      simp

theorem Rounds.sound (h : Rounds d k s s') (hs : s.Sound d cache name) :
    s'.Sound d cache name := by
  induction h with
  | zero => exact hs
  | succ hround _ ih => exact ih (hround.sound hs)

/-- When no type is to come, the types dealt with are those under the first one. -/
theorem Sweep.Sound.mem_seen_iff (hs : s.Sound d cache name) (hdone : s.pending = []) :
    n ∈ s.seen ↔ d.Under name n := by
  have hseen : ∀ {n}, s.Knows n → n ∈ s.seen := by
    intro n hn
    simpa [Knows, hdone] using hn
  constructor
  · exact fun hn => hs.under n (.inl hn)
  · intro hunder
    induction hunder with
    | self => exact hseen hs.first
    | sub hp _ ih => exact hseen (hs.subtypes _ ih _ (Definitions.mem_subtypes_iff.2 hp))

theorem Sweep.sound_start (d : Definitions) (cache : TableCache) (name : Text) :
    Sweep.Sound d cache name ⟨[], cache, [name]⟩ where
  under n hn := by
    obtain rfl : n = name := by simpa [Knows] using hn
    exact .self
  first := .inr List.mem_cons_self
  subtypes := by simp
  cache := (List.filter_eq_self.2 (by simp)).symm

/-- The rounds it takes to drop tables, the types dealt with and the tables left. -/
theorem dropTables_rounds (d : Definitions) (cache : TableCache) (name : Text) :
    ∃ dropped, Rounds d (d.countExtending dropped + 1) ⟨[], cache, [name]⟩
        ⟨dropped, dropTables d [] cache [name], []⟩ ∧
      (∀ n, n ∈ dropped ↔ d.Under name n) ∧
      (dropTables d [] cache [name]).entries = cache.entries.filter (·.1 ∉ dropped) := by
  obtain ⟨k, dropped, hrounds⟩ := exists_rounds d [] cache [name]
  have hsound := hrounds.sound (Sweep.sound_start d cache name)
  have hk : k = d.countExtending dropped + 1 := by
    have hcount := hrounds.count
    simp only [Definitions.countExtending_nil, List.length_singleton, List.length_nil] at hcount
    omega
  exact ⟨dropped, hk ▸ hrounds, fun n => hsound.mem_seen_iff rfl, hsound.cache⟩

theorem get?_dropTables {table : AttributeTable} :
    (dropTables d [] cache [name]).get? n = some table ↔
      cache.get? n = some table ∧ ¬ d.Under name n := by
  obtain ⟨dropped, -, hdropped, hentries⟩ := dropTables_rounds d cache name
  have hmem : (n, table) ∈ (dropTables d [] cache [name]).entries ↔
      (n, table) ∈ cache.entries ∧ ¬ d.Under name n := by
    rw [hentries, List.mem_filter, decide_eq_true_iff, hdropped]
  constructor
  · intro h
    obtain ⟨hn, hnot⟩ := hmem.1 (OrderedMap.mem_entries_of_get? h)
    exact ⟨OrderedMap.get?_eq_some_of_mem hn, hnot⟩
  · rintro ⟨h, hnot⟩
    exact OrderedMap.get?_eq_some_of_mem (hmem.2 ⟨OrderedMap.mem_entries_of_get? h, hnot⟩)

/-- Whatever the definitions and the tables, to drop the tables under a type comes to an end, and
never takes more than one round more than there are definitions. It takes one for the type and one
for each type that extends a type dealt with. Those dealt with are the types from which the way up
leads to the first one. Their tables are dropped, and all other tables and the definitions stay as
they are. -/
theorem invalidate_exact (r : Registry) (name : Text) :
    let start : Sweep := ⟨[], r.cache, [name]⟩
    (r.invalidate name).definitions = r.definitions ∧
    (∀ k s, Rounds r.definitions k start s → k ≤ r.definitions.size + 1) ∧
    ∃ dropped, Rounds r.definitions (r.definitions.countExtending dropped + 1) start
        ⟨dropped, (r.invalidate name).cache, []⟩ ∧
      (∀ n, n ∈ dropped ↔ r.definitions.Under name n) ∧
      (r.invalidate name).cache.entries = r.cache.entries.filter (·.1 ∉ dropped) := by
  intro start
  refine ⟨rfl, fun k s hrounds => ?_, dropTables_rounds r.definitions r.cache name⟩
  have hcount := hrounds.count
  have hsize := r.definitions.countExtending_le_size s.seen
  rw [Definitions.countExtending_nil, List.length_singleton] at hcount
  omega

/-- Two types that extend each other, and one whose parent is not defined. -/
example :
    let d : Definitions := .ofList [(['A'], ⟨some ['B'], .empty⟩), (['B'], ⟨some ['A'], .empty⟩),
      (['C'], ⟨some ['Z'], .empty⟩)]
    let cache : TableCache := .ofList [(['A'], .empty), (['B'], .empty), (['C'], .empty)]
    (invalidate ⟨d, cache⟩ ['A']).cache.keys = [['C']] := by
  cbv

end Registry

end Typeahead
