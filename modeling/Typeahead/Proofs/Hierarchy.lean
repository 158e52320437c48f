import Typeahead.Proofs.Inheritance

/-!
# The hierarchy of record types

A request to a registry leaves the definitions as they are or defines one type anew: under the
parent it had, or under a known one that does not inherit from it (`Definitions.serve_cases`). Such
a definition keeps the types a forest (`Definitions.IsForest.insert`), also when a type in the
middle of the hierarchy is moved, since a way up that comes round afterwards would have to pass the
type that was moved. So what the guards against circles look out for never happens, and a request is
refused exactly if it would bring it about (`Registry.forest_after_requests`).

The way up from a type changes only if it meets the type defined anew, and whether it does is the
same before and after (`Definitions.under_insert_iff`). Hence a change is seen in the tables of that
type and of the types under it, and nowhere else (`Registry.changes_local`).
-/

namespace Typeahead

namespace Definitions

variable {d : Definitions} {name n m p : Text} {type : RecordType}

theorem parent?_insert (d : Definitions) (name : Text) (type : RecordType) (n : Text) :
    parent? (d.insert name type) n = if n = name then type.parent else d.parent? n := by
  rw [parent?, OrderedMap.get?_insert, apply_ite (Option.bind · _)]
  rfl

/-- The types under the one that is defined anew stay the same. -/
theorem under_insert_iff : Under (d.insert name type) name n ↔ d.Under name n := by
  constructor
  · intro h
    induction h with
    | self => exact .self
    | @sub n p hp _ ih =>
      by_cases hn : n = name
      · exact hn ▸ .self
      · rw [parent?_insert, if_neg hn] at hp
        exact .sub hp ih
  · intro h
    induction h with
    | self => exact .self
    | @sub n p hp _ ih =>
      by_cases hn : n = name
      · exact hn ▸ .self
      · exact .sub (by rwa [parent?_insert, if_neg hn]) ih

/-- A way up that was not there before passes the type that is defined anew. -/
theorem under_of_under_insert (h : Under (d.insert name type) m n) :
    d.Under m n ∨ d.Under name n ∧ ∃ p, type.parent = some p ∧ Under (d.insert name type) m p := by
  induction h with
  | self => exact .inl .self
  | @sub n p hp hup ih =>
    rw [parent?_insert] at hp
    split_ifs at hp with hn
    · exact .inr ⟨hn ▸ .self, p, hp, hup⟩
    · rcases ih with hold | ⟨hname, hnew⟩
      · exact .inl (.sub hp hold)
      · exact .inr ⟨.sub hp hname, hnew⟩

/-- Every parent is defined, and no type is above itself. -/
structure IsForest (d : Definitions) : Prop where
  closed : ∀ {n p : Text}, d.parent? n = some p → d.contains p = true
  acyclic : ∀ {n p : Text}, d.parent? n = some p → ¬ d.Under n p

/-- A new definition of a type keeps its parent, or names one that is defined and not under it. -/
def Allows (d : Definitions) (name : Text) (type : RecordType) : Prop :=
  ∀ p, type.parent = some p → d.parent? name = some p ∨ d.contains p = true ∧ ¬ d.Under name p

theorem isForest_empty : IsForest .empty := by
  constructor <;> intro n p hp <;> cases hp

namespace IsForest

theorem parent_of_allows (h : d.IsForest) (hnew : d.Allows name type)
    (hp : type.parent = some p) : d.contains p = true ∧ ¬ d.Under name p := by
  rcases hnew p hp with hold | hknown
  · exact ⟨h.closed hold, h.acyclic hold⟩
  · exact hknown

theorem insert (h : d.IsForest) (hnew : d.Allows name type) :
    IsForest (d.insert name type) := by
  have hparent : ∀ {n p}, parent? (d.insert name type) n = some p →
      n = name ∧ type.parent = some p ∨ n ≠ name ∧ d.parent? n = some p := by
    intro n p hp
    rw [parent?_insert] at hp
    split_ifs at hp with hn
    · exact .inl ⟨hn, hp⟩
    · exact .inr ⟨hn, hp⟩
  constructor
  · intro n p hp
    have hold : d.contains p = true := by
      rcases hparent hp with ⟨-, hp⟩ | ⟨-, hp⟩
      · exact (h.parent_of_allows hnew hp).1
      · exact h.closed hp
    rw [OrderedMap.contains, OrderedMap.get?_insert]
    split_ifs
    · rfl
    · exact hold
  · intro n p hp hup
    rcases hparent hp with ⟨rfl, hp'⟩ | ⟨hn, hp'⟩
    · exact (h.parent_of_allows hnew hp').2 (under_insert_iff.1 hup)
    rcases under_of_under_insert hup with hold | ⟨hname, q, hq, hnq⟩
    · exact h.acyclic hp' hold
    · -- The circle leads from the type over its new parent back to it.
      have hback : Under (d.insert name type) name n := .sub hp (under_insert_iff.2 hname)
      exact (h.parent_of_allows hnew hq).2 (under_insert_iff.1 (hback.trans hnq))

theorem exists_chain (h : d.IsForest) (hn : d.contains n = true) :
    ∃ chain, d.Chain n chain := by
  obtain ⟨type, htype⟩ := OrderedMap.contains_iff.1 hn
  rcases chain_or_leaves_or_circles htype with hchain | ⟨m, p, -, hp, hnone⟩ | ⟨m, p, -, hp, hup⟩
  · exact hchain
  · rw [h.closed hp] at hnone
    cases hnone
  · exact absurd hup (h.acyclic hp)

theorem isSome_flatten (h : d.IsForest) (n : Text) : (d.flatten n).isSome = d.contains n := by
  rcases hn : d.get? n with _ | type
  · rw [flatten_of_get?_eq_none hn, OrderedMap.contains, hn]
    rfl
  · have hcontains : d.contains n = true := OrderedMap.contains_iff.2 ⟨type, hn⟩
    obtain ⟨chain, hchain⟩ := h.exists_chain hcontains
    rw [hchain.flatten, hcontains]
    rfl

end IsForest

end Definitions

/-! ### What requests do to definitions -/

/-- The type that a request is to change. -/
def Registry.Request.subject? : Request → Option Text
  | .define name _ => some name
  | .extend _ name _ => some name
  | .reopen name _ => some name
  | _ => none

namespace Definitions

open Registry (Request)

variable {d : Definitions} {n : Text}

theorem serve_cases (d : Definitions) (request : Request) : (d.serve request).2 = d ∨
    ∃ name type, request.subject? = some name ∧ (d.serve request).2 = d.insert name type ∧
      d.Allows name type := by
  cases request with
  | define name attributes =>
    exact .inr ⟨name, ⟨none, attributes⟩, rfl, rfl, fun p hp => by cases hp⟩
  | extend parent name attributes =>
    simp only [serve]
    split_ifs with hknown hcircle
    · exact .inl rfl
    · exact .inl rfl
    · refine .inr ⟨name, ⟨some parent, attributes⟩, rfl, rfl, ?_⟩
      rintro _ ⟨⟩
      exact .inr ⟨by simpa using hknown, fun hup => hcircle (inherits_iff.2 hup)⟩
  | reopen name attributes =>
    simp only [serve]
    rcases htype : d.get? name with _ | type
    · exact .inl rfl
    · exact .inr ⟨name, _, rfl, rfl, fun p hp => .inl ((parent?_of_get? htype).trans hp)⟩
  | attributes | contains | recordTypes | subtypes | parent => exact .inl rfl

theorem IsForest.serve (h : d.IsForest) (request : Request) : (d.serve request).2.IsForest := by
  rcases d.serve_cases request with hsame | ⟨name, type, -, hnew, hallows⟩
  · rwa [hsame]
  · rw [hnew]
    exact h.insert hallows

theorem parent?_serve {request : Request} (h : request.subject? = some n) {m : Text}
    (hm : m ≠ n) : (d.serve request).2.parent? m = d.parent? m := by
  rcases d.serve_cases request with hsame | ⟨name, type, hname, hnew, -⟩
  · rw [hsame]
  · cases h.symm.trans hname
    rw [hnew, parent?_insert, if_neg hm]

theorem under_serve_iff {request : Request} (h : request.subject? = some n) {m : Text} :
    (d.serve request).2.Under n m ↔ d.Under n m := by
  rcases d.serve_cases request with hsame | ⟨name, type, hname, hnew, -⟩
  · rw [hsame]
  · cases h.symm.trans hname
    rw [hnew, under_insert_iff]

theorem flatten_serve {request : Request} (h : request.subject? = some n) {m : Text}
    (hm : ¬ d.Under n m) : (d.serve request).2.flatten m = d.flatten m := by
  rcases d.serve_cases request with hsame | ⟨name, type, hname, hnew, -⟩
  · rw [hsame]
  · cases h.symm.trans hname
    rw [hnew]
    exact flatten_insert fun hup => hm (under_insert_iff.1 hup)

theorem keys_serve (d : Definitions) (request : Request) : (d.serve request).2.keys = d.keys ∨
    ∃ n, request.subject? = some n ∧ d.contains n = false ∧
      (d.serve request).2.keys = d.keys ++ [n] := by
  rcases d.serve_cases request with hsame | ⟨name, type, hname, hnew, -⟩
  · exact .inl (by rw [hsame])
  · rw [hnew, OrderedMap.keys_insert]
    split_ifs with hmem
    · exact .inl rfl
    · rw [OrderedMap.mem_keys_iff, Bool.not_eq_true] at hmem
      exact .inr ⟨name, hname, hmem, rfl⟩

theorem keys_isPrefix_serveAll : ∀ (requests : List Request) (d : Definitions),
    d.keys <+: (d.serveAll requests).2.keys
  | [], _ => List.prefix_rfl
  | request :: requests, d => by
    have hfirst : d.keys <+: (d.serve request).2.keys := by
      rcases d.keys_serve request with hsame | ⟨n, -, -, hnew⟩
      · exact hsame ▸ List.prefix_rfl
      · exact hnew ▸ List.prefix_append _ _
    exact hfirst.trans (keys_isPrefix_serveAll requests _)

end Definitions

/-! ### Registries -/

namespace Registry

variable {r : Registry}

/-- The types of the registry are a forest, and its tables are current. -/
structure WellFormed (r : Registry) : Prop where
  current : r.Current
  forest : r.definitions.IsForest

theorem wellFormed_empty : empty.WellFormed := by
  refine ⟨fun n table htable => ?_, Definitions.isForest_empty⟩
  cases htable

namespace WellFormed

theorem serve (h : r.WellFormed) (request : Request) : (r.serve request).2.WellFormed := by
  obtain ⟨-, hdefinitions, hcurrent⟩ := h.current.serve request
  refine ⟨hcurrent, ?_⟩
  rw [hdefinitions]
  exact h.forest.serve request

theorem serveAll : ∀ {r : Registry}, r.WellFormed → ∀ requests : List Request,
    (r.serveAll requests).2.WellFormed
  | _, h, [] => h
  | _, h, request :: requests => (h.serve request).serveAll requests

end WellFormed

theorem extend_cases (r : Registry) (p n : Text) (attributes : AttributeTable) :
    r.contains p = false ∧ r.extend p n attributes = .error (.unknownParent n p) ∨
    r.contains p = true ∧ r.definitions.Under n p ∧
      r.extend p n attributes = .error (.inheritanceCycle n) ∨
    r.contains p = true ∧ ¬ r.definitions.Under n p ∧
      r.extend p n attributes = .ok (r.put n ⟨some p, attributes⟩) := by
  unfold extend contains
  rw [← Definitions.inherits_iff]
  cases r.definitions.contains p <;> cases r.definitions.inherits p n <;> simp

theorem reopen_cases (r : Registry) (n : Text) (attributes : AttributeTable) :
    r.contains n = false ∧ r.reopen n attributes = .error (.unknownType n) ∨
    r.contains n = true ∧ ∃ r', r.reopen n attributes = .ok r' := by
  unfold reopen contains OrderedMap.contains
  cases r.definitions.get? n <;> simp

/-- A refused request might as well not have been made. -/
theorem serve_of_error {request : Request} {e : SchemaError}
    (h : (r.serve request).1 = .done (.error e)) : (r.serve request).2 = r := by
  have hchanged : ∀ result, (r.changed result).1 = .done (.error e) → (r.changed result).2 = r := by
    rintro (e' | r') hresult
    · rfl
    · cases hresult
  cases request with
  | define | extend | reopen => exact hchanged _ h
  | attributes | contains | recordTypes | subtypes | parent => cases h

/-- Whatever was asked of a registry, each parent is known in it and no type is above itself, so the
known types are those with a table. A type is refused a parent that is not known, or that is the
type itself or under it, and no other; only an unknown type cannot be reopened; and what is refused
has no effect. -/
theorem forest_after_requests (requests : List Request) :
    let r := (empty.serveAll requests).2
    r.definitions.IsForest ∧
    (∀ n, (r.attributes n).1.isSome = r.contains n) ∧
    (∀ p n attributes,
      (r.extend p n attributes = .error (.unknownParent n p) ↔ r.contains p = false) ∧
      (r.extend p n attributes = .error (.inheritanceCycle n) ↔
        r.contains p = true ∧ r.definitions.Under n p) ∧
      ((∃ r', r.extend p n attributes = .ok r') ↔
        r.contains p = true ∧ ¬ r.definitions.Under n p)) ∧
    (∀ n attributes, (∃ e, r.reopen n attributes = .error e) ↔ r.contains n = false) ∧
    ∀ request e, (r.serve request).1 = .done (.error e) →
      (r.serve request).2.definitions = r.definitions ∧
      ∀ later, r.serveAll (request :: later) =
        (.done (.error e) :: (r.serveAll later).1, (r.serveAll later).2) := by
  intro r
  have h : r.WellFormed := wellFormed_empty.serveAll requests
  refine ⟨h.forest, fun n => ?_, fun p n attributes => ?_, fun n attributes => ?_,
    fun request e he => ?_⟩
  · rw [(h.current.attributes n).1]
    exact h.forest.isSome_flatten n
  · rcases r.extend_cases p n attributes with ⟨hp, he⟩ | ⟨hp, hup, he⟩ | ⟨hp, hup, he⟩
    · simp [hp, he]
    · simp [hp, hup, he]
    · simp [hp, hup, he]
  · rcases r.reopen_cases n attributes with ⟨hn, he⟩ | ⟨hn, r', he⟩ <;> simp [hn, he]
  · have hsame := serve_of_error he
    refine ⟨by rw [hsame], fun later => ?_⟩
    rw [Registry.serveAll, hsame, he]

theorem forest_after_requests_circle :
    let r := (empty.serveAll [.define ['A'] .empty, .extend ['A'] ['B'] .empty]).2
    let request := Request.extend ['B'] ['A'] .empty
    (r.serve request).1 = .done (.error (.inheritanceCycle ['A'])) ∧
      (r.serve request).2.definitions = r.definitions := by
  intro r request
  obtain ⟨-, -, hextend, -, hrefused⟩ :=
    forest_after_requests [.define ['A'] .empty, .extend ['A'] ['B'] .empty]
  have hcircle : r.contains ['B'] = true ∧ r.definitions.inherits ['B'] ['A'] = true := by
    decide +kernel
  have herror := (hextend ['B'] ['A'] .empty).2.1.2
    ⟨hcircle.1, Definitions.inherits_iff.1 hcircle.2⟩
  have hreply : (r.serve request).1 = .done (.error (.inheritanceCycle ['A'])) := by
    simp only [request, Registry.serve, r, herror]
    rfl
  exact ⟨hreply, (hrefused request _ hreply).1⟩

/-- A change of a type is seen in the tables of the types that are under it, before and after alike,
and in no others. The other types keep their parents, and all known types their places, for good. -/
theorem changes_local (requests : List Request) :
    let r := (empty.serveAll requests).2
    (∀ request n, request.subject? = some n →
      let r' := (r.serve request).2
      (∀ m, (r'.definitions.Under n m ↔ r.definitions.Under n m) ∧
        (¬ r.definitions.Under n m → (r'.attributes m).1 = (r.attributes m).1)) ∧
      (∀ m, m ≠ n → r'.parent? m = r.parent? m) ∧
      (r'.recordTypes = r.recordTypes ∨
        r.contains n = false ∧ r'.recordTypes = r.recordTypes ++ [n])) ∧
    ∀ later, r.recordTypes <+: (r.serveAll later).2.recordTypes := by
  intro r
  have h : r.WellFormed := wellFormed_empty.serveAll requests
  refine ⟨fun request n hn => ?_, fun later => ?_⟩
  · obtain ⟨-, hdefinitions, hcurrent⟩ := h.current.serve request
    refine ⟨fun m => ⟨?_, fun hm => ?_⟩, fun m hm => ?_, ?_⟩
    · rw [hdefinitions, Definitions.under_serve_iff hn]
    · rw [(hcurrent.attributes m).1, (h.current.attributes m).1, hdefinitions,
        Definitions.flatten_serve hn hm]
    · rw [parent?, parent?, hdefinitions, Definitions.parent?_serve hn hm]
    · rw [recordTypes, recordTypes, hdefinitions]
      rcases r.definitions.keys_serve request with hsame | ⟨n', hn', hnone, hnew⟩
      · exact .inl hsame
      · cases hn.symm.trans hn'
        exact .inr ⟨hnone, hnew⟩
  · rw [recordTypes, recordTypes, (h.current.serveAll later).2.1]
    exact r.definitions.keys_isPrefix_serveAll later

/-- A type with a subtype is moved under a third one. -/
theorem changes_local_moved :
    let r := (empty.serveAll [.define ['A'] (.ofList [(['x'], .scalar ['s'])]),
      .extend ['A'] ['B'] .empty, .define ['C'] (.ofList [(['y'], .scalar ['s'])])]).2
    let r' := (r.serve (.extend ['C'] ['A'] .empty)).2
    ¬ r.definitions.Under ['A'] ['C'] ∧ (r'.attributes ['C']).1 = (r.attributes ['C']).1 ∧
      r'.parent? ['B'] = r.parent? ['B'] := by
  intro r r'
  obtain ⟨htable, hparent, -⟩ := (changes_local _).1 (.extend ['C'] ['A'] .empty) ['A'] rfl
  have hnot : ¬ r.definitions.Under ['A'] ['C'] := by
    rw [← Definitions.inherits_iff]
    decide +kernel
  exact ⟨hnot, (htable ['C']).2 hnot, hparent ['B'] (by decide)⟩

end Registry

end Typeahead
