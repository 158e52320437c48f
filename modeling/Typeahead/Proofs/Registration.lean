import Typeahead.Proofs.Inheritance
import Typeahead.Settings.Basic

/-!
# Defining declared types

Declared types are defined in rounds. At any moment of a round the types defined so far and those
that still wait make up the declarations, and every type defined has its chain (`Registering`). So
a type that is defined is always a new one, a parent that is known never inherits from it, and no
definition is refused (`Registering.register`).

A round that defines nothing leaves only types whose parents are not defined, and none of those has
a chain (`Registering.no_chain`). Hence all declared types are defined exactly if all have
chains, whatever their order (`registry_determined`), and else the first declared type without a
chain is named (`registry_error`). Whether it is called cyclic depends on its parent alone: if this
is declared, a circle is reported even where the way up ends at an undeclared type
(`registry_reports_false_circle`).
-/

namespace Typeahead

namespace Settings

variable {declared : Definitions} {r : Registry} {pending deferred : List (Text × RecordType)}
  {name : Text} {type : RecordType}

/-- What is defined and what is pending make up the declarations, and every type defined has its
chain. -/
structure Registering (declared : Definitions) (r : Registry)
    (pending : List (Text × RecordType)) : Prop where
  perm : (r.definitions.entries ++ pending).Perm declared.entries
  chains : ∀ n type, r.definitions.get? n = some type → ∃ chain, r.definitions.Chain n chain
  current : r.Current

/-- Each of these types extends one that is not defined. -/
def Waiting (r : Registry) (pending : List (Text × RecordType)) : Prop :=
  ∀ e ∈ pending, ∃ p, e.2.parent = some p ∧ r.definitions.get? p = none

namespace Registering

theorem start (declared : Definitions) : Registering declared .empty declared.entries := by
  refine ⟨.refl _, fun n type h => ?_, fun n table h => ?_⟩ <;> cases h

theorem of_perm (h : Registering declared r pending) (hp : pending.Perm deferred) :
    Registering declared r deferred :=
  ⟨(hp.symm.append_left _).trans h.perm, h.chains, h.current⟩

theorem mem_declared (h : Registering declared r pending) {e : Text × RecordType} :
    e ∈ declared.entries ↔ e ∈ r.definitions.entries ∨ e ∈ pending := by
  rw [← h.perm.mem_iff, List.mem_append]

theorem get?_declared (h : Registering declared r pending) (n : Text) (type : RecordType)
    (hn : r.definitions.get? n = some type) : declared.get? n = some type :=
  OrderedMap.get?_eq_some_of_mem (h.mem_declared.2 (.inl (OrderedMap.mem_entries_of_get? hn)))

theorem notMem (h : Registering declared r pending) (hn : (name, type) ∈ pending) :
    name ∉ r.definitions.entries.map Prod.fst := by
  have hnodup : ((r.definitions.entries ++ pending).map Prod.fst).Nodup :=
    (h.perm.map Prod.fst).nodup_iff.2 declared.nodup
  rw [List.map_append, List.nodup_append] at hnodup
  intro hmem
  exact hnodup.2.2 name hmem name (List.mem_map_of_mem hn) rfl

/-- A type that waits is not defined yet. -/
theorem get?_eq_none (h : Registering declared r pending) (hn : (name, type) ∈ pending) :
    r.definitions.get? name = none := by
  rcases hget : r.definitions.get? name with _ | type'
  · rfl
  · exact absurd (List.mem_map_of_mem (OrderedMap.mem_entries_of_get? hget)) (h.notMem hn)

/-! ### One round -/

theorem get?_put (h : Registering declared r ((name, type) :: pending)) (n : Text)
    (type' : RecordType) (hn : r.definitions.get? n = some type') :
    (r.put name type).definitions.get? n = some type' := by
  have hne : n ≠ name := by
    rintro rfl
    rw [h.get?_eq_none List.mem_cons_self] at hn
    cases hn
  rw [Registry.put_definitions, OrderedMap.get?_insert, if_neg hne, hn]

/-- Defining a type that extends nothing, or a known type. -/
theorem put (h : Registering declared r ((name, type) :: pending))
    (hparent : ∀ p, type.parent = some p → r.contains p = true) :
    Registering declared (r.put name type) pending := by
  have hname : (r.put name type).definitions.get? name = some type := by
    rw [Registry.put_definitions, OrderedMap.get?_insert, if_pos rfl]
  refine ⟨?_, fun n type' hn => ?_, h.current.put name type⟩
  · have hentries : (r.put name type).definitions.entries =
        r.definitions.entries ++ [(name, type)] :=
      putEntry_of_notMem (h.notMem List.mem_cons_self)
    rw [hentries, List.append_assoc, List.singleton_append]
    exact h.perm
  · rcases hget : r.definitions.get? n with _ | type''
    · -- Only the new type had no definition before.
      obtain rfl : n = name := by
        rw [Registry.put_definitions, OrderedMap.get?_insert, hget] at hn
        split_ifs at hn with hne
        exact hne
      rcases hp : type.parent with _ | p
      · exact ⟨_, .root hname hp⟩
      · obtain ⟨above, habove⟩ := Option.isSome_iff_exists.1 (hparent p hp)
        obtain ⟨chain, hchain⟩ := h.chains p above habove
        exact ⟨_, .child hname hp (hchain.mono h.get?_put)⟩
    · obtain ⟨chain, hchain⟩ := h.chains n type'' hget
      exact ⟨chain, hchain.mono h.get?_put⟩

/-- What waits after a definition has waited before. -/
theorem waiting_of_put (h : Registering declared r ((name, type) :: pending))
    (hw : Waiting (r.put name type) deferred) : Waiting r deferred := by
  intro e he
  obtain ⟨p, hp, hnone⟩ := hw e he
  refine ⟨p, hp, ?_⟩
  rcases hget : r.definitions.get? p with _ | above
  · rfl
  · rw [h.get?_put p above hget] at hnone
    cases hnone

/-- To extend a known type by one that waits is never refused. -/
theorem extend (h : Registering declared r ((name, type) :: pending)) {p : Text}
    (hp : r.contains p = true) (attributes : AttributeTable) :
    r.extend p name attributes = .ok (r.put name ⟨some p, attributes⟩) := by
  obtain ⟨above, habove⟩ := Option.isSome_iff_exists.1 hp
  obtain ⟨chain, hchain⟩ := h.chains p above habove
  have hcontains : r.definitions.contains p = true := hp
  rw [Registry.extend, hcontains, hchain.inherits_eq_false (h.get?_eq_none List.mem_cons_self)]
  rfl

theorem register_append : ∀ (pending others : List (Text × RecordType)) {r : Registry},
    Registering declared r (pending ++ others) →
    ∃ r' deferred, Settings.register r pending = .ok (r', deferred) ∧
      Registering declared r' (deferred ++ others) ∧ deferred.Sublist pending ∧
      Waiting r deferred
  | [], others, r, h => ⟨r, [], rfl, h, .slnil, by simp [Waiting]⟩
  | (name, ⟨parent, attributes⟩) :: rest, others, r, h => by
    -- Once the type is defined the round goes on with a larger registry.
    have hdefined : (∀ p, parent = some p → r.contains p = true) →
        ∃ r' deferred,
          Settings.register (r.put name ⟨parent, attributes⟩) rest = .ok (r', deferred) ∧
          Registering declared r' (deferred ++ others) ∧
          deferred.Sublist ((name, ⟨parent, attributes⟩) :: rest) ∧ Waiting r deferred := by
      intro hparent
      obtain ⟨r', deferred, hregister, h', hsub, hw⟩ :=
        register_append rest others (h.put hparent)
      exact ⟨r', deferred, hregister, h', hsub.cons _, h.waiting_of_put hw⟩
    rcases parent with _ | p
    · simpa only [Settings.register, Registry.define] using hdefined (by simp)
    · by_cases hp : r.contains p = true
      · simpa only [Settings.register, hp, if_true, h.extend hp] using
          hdefined (by rintro _ ⟨⟩; exact hp)
      · -- The type is put off: it joins those put off before.
        obtain ⟨r', deferred, hregister, h', hsub, hw⟩ :=
          register_append rest ((name, ⟨some p, attributes⟩) :: others)
            (h.of_perm List.perm_middle.symm)
        refine ⟨r', (name, ⟨some p, attributes⟩) :: deferred, ?_, h'.of_perm List.perm_middle,
          hsub.cons_cons _, ?_⟩
        · simp only [Settings.register, if_neg hp, hregister]
        · rintro e (_ | ⟨_, he⟩)
          · exact ⟨p, rfl, by simpa [Registry.contains, OrderedMap.contains] using hp⟩
          · exact hw e he

/-- A round: no definition is refused, and what is put off waited at the start of the round. -/
theorem register (h : Registering declared r pending) :
    ∃ r' deferred, Settings.register r pending = .ok (r', deferred) ∧
      Registering declared r' deferred ∧ deferred.Sublist pending ∧ Waiting r deferred := by
  obtain ⟨r', deferred, hregister, h', hsub, hw⟩ :=
    register_append pending [] (by rwa [List.append_nil])
  exact ⟨r', deferred, hregister, by rwa [List.append_nil] at h', hsub, hw⟩

/-! ### All rounds -/

theorem registerAll {r : Registry} {pending : List (Text × RecordType)}
    (h : Registering declared r pending) (hsub : pending.Sublist declared.entries) :
    (∃ r', Settings.registerAll declared r pending = .ok r' ∧ Registering declared r' []) ∨
    ∃ r' name type rest,
      Settings.registerAll declared r pending = .error (stuckError declared name type) ∧
      Registering declared r' ((name, type) :: rest) ∧ Waiting r' ((name, type) :: rest) ∧
      ((name, type) :: rest).Sublist declared.entries := by
  obtain ⟨r', deferred, hregister, h', hsub', hw⟩ := h.register
  rw [Settings.registerAll, hregister]
  rcases deferred with _ | ⟨⟨name, type⟩, rest⟩
  · exact .inl ⟨r', rfl, h'⟩
  · simp only []
    split_ifs with hlt
    · exact h'.registerAll (hsub'.trans hsub)
    · have heq : (name, type) :: rest = pending :=
        hsub'.eq_of_length_le (by rw [List.length_cons]; omega)
      exact .inr ⟨r, name, type, rest, rfl, heq ▸ h, hw, heq ▸ hsub⟩
termination_by pending.length

/-- If nothing that waits can be defined, then what has a chain is defined already. -/
theorem get?_of_chain (h : Registering declared r pending) (hw : Waiting r pending) {n : Text}
    {chain : List RecordType} (hchain : declared.Chain n chain) :
    ∃ type, r.definitions.get? n = some type := by
  induction hchain with
  | @root n type htype hroot =>
    rcases h.mem_declared.1 (OrderedMap.mem_entries_of_get? htype) with hmem | hmem
    · exact ⟨type, OrderedMap.get?_eq_some_of_mem hmem⟩
    · obtain ⟨p, hp, -⟩ := hw _ hmem
      rw [hroot] at hp
      cases hp
  | @child n p type chain htype hp _ ih =>
    rcases h.mem_declared.1 (OrderedMap.mem_entries_of_get? htype) with hmem | hmem
    · exact ⟨type, OrderedMap.get?_eq_some_of_mem hmem⟩
    · obtain ⟨q, hq, hnone⟩ := hw _ hmem
      obtain ⟨above, habove⟩ := ih
      rw [hp] at hq
      cases hq
      rw [hnone] at habove
      cases habove

theorem no_chain (h : Registering declared r pending) (hw : Waiting r pending)
    (hn : (name, type) ∈ pending) : ¬ ∃ chain, declared.Chain name chain := by
  rintro ⟨chain, hchain⟩
  obtain ⟨type', hget⟩ := h.get?_of_chain hw hchain
  rw [h.get?_eq_none hn] at hget
  cases hget

/-- The types that wait stand in the order in which they are declared. -/
theorem filter_eq (h : Registering declared r pending) (hsub : pending.Sublist declared.entries) :
    declared.entries.filter (fun e => (r.definitions.get? e.1).isNone) = pending := by
  have hdefined : r.definitions.entries.filter
      (fun e => (r.definitions.get? e.1).isNone) = [] := by
    rw [List.filter_eq_nil_iff]
    intro e he
    rw [OrderedMap.get?_eq_some_of_mem he]
    simp
  have hpending : pending.filter (fun e => (r.definitions.get? e.1).isNone) = pending := by
    rw [List.filter_eq_self]
    intro e he
    rw [h.get?_eq_none he]
    rfl
  have hperm := h.perm.filter fun e => (r.definitions.get? e.1).isNone
  rw [List.filter_append, hdefined, hpending, List.nil_append] at hperm
  have hsub' := hsub.filter fun e => (r.definitions.get? e.1).isNone
  rw [hpending] at hsub'
  exact (hsub'.eq_of_length hperm.length_eq).symm

end Registering

/-! ### The registry -/

/-- The registry holds the declared types and no others, with the parents they are declared with
and the attributes found along their chains. -/
structure Registered (declared : Definitions) (r : Registry) : Prop where
  types : r.recordTypes.Perm declared.keys
  parent : ∀ n, r.parent? n = declared.parent? n
  table : ∀ n chain, declared.Chain n chain → (r.attributes n).1 = some (Definitions.merged chain)
  unknown : ∀ n, declared.get? n = none → (r.attributes n).1 = none

namespace Registering

variable (h : Registering declared r [])

include h

theorem get?_eq (n : Text) : r.definitions.get? n = declared.get? n :=
  OrderedMap.get?_congr (fun e => by simpa using (h.mem_declared (e := e)).symm) n

theorem exists_chain (hn : declared.get? name = some type) :
    ∃ chain, declared.Chain name chain := by
  rw [← h.get?_eq] at hn
  obtain ⟨chain, hchain⟩ := h.chains name type hn
  exact ⟨chain, hchain.mono h.get?_declared⟩

theorem registered : Registered declared r := by
  have hperm := h.perm
  rw [List.append_nil] at hperm
  refine ⟨hperm.map Prod.fst, fun n => ?_, fun n chain hchain => ?_, fun n hn => ?_⟩
  · rw [Registry.parent?, Definitions.parent?, Definitions.parent?, h.get?_eq]
  · have hdefined : r.definitions.Chain n chain :=
      hchain.mono fun n type hn => (h.get?_eq n).trans hn
    rw [(h.current.attributes n).1, hdefined.flatten]
  · rw [← h.get?_eq] at hn
    rw [(h.current.attributes n).1, Definitions.flatten_of_get?_eq_none hn]

end Registering

theorem registry_cases (s : Settings) :
    (∃ r, s.registry = .ok r ∧ Registering s.schema r []) ∨
    ∃ r name type rest, s.registry = .error (stuckError s.schema name type) ∧
      Registering s.schema r ((name, type) :: rest) ∧ Waiting r ((name, type) :: rest) ∧
      ((name, type) :: rest).Sublist s.schema.entries :=
  (Registering.start s.schema).registerAll (List.Sublist.refl _)

theorem registering_of_ok {s : Settings} (h : s.registry = .ok r) :
    Registering s.schema r [] := by
  obtain ⟨r', hr', h'⟩ | ⟨_, _, _, _, herror, -⟩ := s.registry_cases
  · rw [h] at hr'
    cases hr'
    exact h'
  · rw [h] at herror
    cases herror

theorem registry_isOk_iff (s : Settings) :
    (∃ r, s.registry = .ok r) ↔ ∀ name ∈ s.schema.keys, ∃ chain, s.schema.Chain name chain := by
  constructor
  · rintro ⟨r, hr⟩ name hname
    obtain ⟨e, he, rfl⟩ := List.mem_map.1 hname
    exact (registering_of_ok hr).exists_chain (OrderedMap.get?_eq_some_of_mem he)
  · intro hchains
    obtain ⟨r, hr, -⟩ | ⟨r, name, type, rest, -, h, hw, hsub⟩ := s.registry_cases
    · exact ⟨r, hr⟩
    · exact absurd (hchains name (List.mem_map_of_mem (hsub.subset List.mem_cons_self)))
        (h.no_chain hw List.mem_cons_self)

/-- The order of the declarations does not matter. -/
theorem registry_perm {s s' : Settings} (hperm : s.schema.entries.Perm s'.schema.entries) :
    ((∃ r, s.registry = .ok r) ↔ ∃ r', s'.registry = .ok r') ∧
      ∀ r r', s.registry = .ok r → s'.registry = .ok r' →
        ∀ n, r.parent? n = r'.parent? n ∧ (r.attributes n).1 = (r'.attributes n).1 := by
  have hget : ∀ n, s.schema.get? n = s'.schema.get? n :=
    OrderedMap.get?_congr fun e => hperm.mem_iff
  have hkeys : ∀ {n}, n ∈ s.schema.keys ↔ n ∈ s'.schema.keys := (hperm.map Prod.fst).mem_iff
  refine ⟨by simp only [registry_isOk_iff, Definitions.chain_congr hget, hkeys],
    fun r r' hr hr' n => ?_⟩
  have h := (registering_of_ok hr).registered
  have h' := (registering_of_ok hr').registered
  refine ⟨?_, ?_⟩
  · rw [h.parent, h'.parent, Definitions.parent?, Definitions.parent?, hget]
  · rcases hn : s.schema.get? n with _ | type
    · rw [h.unknown n hn, h'.unknown n ((hget n).symm.trans hn)]
    · obtain ⟨chain, hchain⟩ := (registering_of_ok hr).exists_chain hn
      rw [h.table n chain hchain, h'.table n chain ((Definitions.chain_congr hget).1 hchain)]

/-- The error names the first declared type without a chain. -/
theorem registry_error {s : Settings} {e : SchemaError} (h : s.registry = .error e) :
    ∃ before name type after, s.schema.entries = before ++ (name, type) :: after ∧
      (∀ x ∈ before, ∃ chain, s.schema.Chain x.1 chain) ∧
      (¬ ∃ chain, s.schema.Chain name chain) ∧ e = stuckError s.schema name type := by
  obtain ⟨r, hr, -⟩ | ⟨r, name, type, rest, herror, hreg, hw, hsub⟩ := s.registry_cases
  · rw [h] at hr
    cases hr
  · rw [h] at herror
    cases herror
    obtain ⟨before, after, hentries, hbefore, -, -⟩ :=
      List.filter_eq_cons_iff.1 (hreg.filter_eq hsub)
    refine ⟨before, name, type, after, hentries, fun x hx => ?_,
      hreg.no_chain hw List.mem_cons_self, rfl⟩
    obtain ⟨type', hget⟩ : ∃ type', r.definitions.get? x.1 = some type' := by
      have hsome := hbefore x hx
      rw [Option.isNone_iff_eq_none] at hsome
      exact Option.ne_none_iff_exists'.1 hsome
    obtain ⟨chain, hchain⟩ := hreg.chains x.1 type' hget
    exact ⟨chain, hchain.mono hreg.get?_declared⟩

/-- The rounds that are made: how many there have been, and what each of them starts with. -/
inductive Round (declared : Definitions) : Nat → Registry → List (Text × RecordType) → Prop
  | first : Round declared 0 .empty declared.entries
  | next {k : Nat} {r r' : Registry} {pending deferred : List (Text × RecordType)} :
      Round declared k r pending → register r pending = .ok (r', deferred) →
      deferred.length < pending.length → Round declared (k + 1) r' deferred

theorem Round.registering {k : Nat} (h : Round declared k r pending) :
    Registering declared r pending ∧ k + pending.length ≤ declared.size := by
  induction h with
  | first => exact ⟨.start declared, by simp [OrderedMap.size]⟩
  | next _ hregister hlt ih =>
    obtain ⟨r', deferred, hregister', h', -⟩ := ih.1.register
    rw [hregister] at hregister'
    cases hregister'
    exact ⟨h', by omega⟩

theorem registerAll_nil (declared : Definitions) (r : Registry) :
    registerAll declared r [] = .ok r := by
  rw [registerAll]
  rfl

/-- From every round on, what is left to do leads to the registry. -/
theorem Round.registry_eq {s : Settings} {k : Nat} (h : Round s.schema k r pending) :
    s.registry = registerAll s.schema r pending := by
  induction h with
  | first => rfl
  | @next k r r' pending deferred _ hregister hlt ih =>
    rw [ih, registerAll, hregister]
    rcases deferred with _ | ⟨⟨name, type⟩, rest⟩
    · rw [registerAll_nil]
    · rw [List.length_cons] at hlt
      simp only [if_pos hlt]

/-- The registry depends on what is declared and not on the order. There is one exactly if every
declared type has its chain, and it holds the declared types and no others. There are no more rounds
than declared types after the first one, and in none of them a definition is refused. -/
theorem registry_determined (s : Settings) :
    ((∃ r, s.registry = .ok r) ↔ ∀ name ∈ s.schema.keys, ∃ chain, s.schema.Chain name chain) ∧
    (∀ r, s.registry = .ok r → Registered s.schema r) ∧
    (∀ s' : Settings, s.schema.entries.Perm s'.schema.entries →
      ((∃ r, s.registry = .ok r) ↔ ∃ r', s'.registry = .ok r') ∧
      ∀ r r', s.registry = .ok r → s'.registry = .ok r' →
        ∀ n, r.parent? n = r'.parent? n ∧ (r.attributes n).1 = (r'.attributes n).1) ∧
    ∀ k r pending, Round s.schema k r pending → k ≤ s.schema.size ∧
      s.registry = registerAll s.schema r pending ∧ ∃ after, register r pending = .ok after := by
  refine ⟨s.registry_isOk_iff, fun r hr => (registering_of_ok hr).registered,
    fun s' hperm => registry_perm hperm, fun k r pending hround => ?_⟩
  obtain ⟨h, hsize⟩ := hround.registering
  obtain ⟨r', deferred, hregister, -⟩ := h.register
  exact ⟨by omega, hround.registry_eq, _, hregister⟩

/-- A type declared before the one that it extends. -/
def childFirst : Settings where
  schema := .ofList
    [(['B'], ⟨some ['A'], .ofList [(['y'], .toOne ['A']), (['x'], .scalar ['n'])]⟩),
      (['A'], ⟨none, .ofList [(['x'], .scalar ['s']), (['z'], .scalar ['s'])]⟩)]

theorem registry_determined_child_first :
    ∃ r, childFirst.registry = .ok r ∧ r.recordTypes.Perm [['B'], ['A']] ∧
      r.parent? ['B'] = some ['A'] ∧
      (r.attributes ['B']).1.map OrderedMap.entries = some
        [(['x'], .scalar ['n']), (['z'], .scalar ['s']), (['y'], .toOne ['A'])] := by
  obtain ⟨hok, hregistered, -, -⟩ := registry_determined childFirst
  have hroot : childFirst.schema.Chain ['A'] _ := .root rfl rfl
  have hchild : childFirst.schema.Chain ['B'] _ := .child rfl rfl hroot
  obtain ⟨r, hr⟩ := hok.2 (by
    intro name hname
    rcases List.mem_cons.1 hname with rfl | hname
    · exact ⟨_, hchild⟩
    · rw [List.mem_singleton.1 hname]
      exact ⟨_, hroot⟩)
  have h := hregistered r hr
  exact ⟨r, hr, h.types, (h.parent _).trans rfl, by rw [h.table _ _ hchild]; rfl⟩

/-- A type is reported whose way up does not end, the first that is declared. If its parent is not
declared the error says so. Else a circle is reported, and the way up comes round among the declared
types unless it leaves them further up. -/
theorem registry_error_cause {s : Settings} {e : SchemaError} (h : s.registry = .error e) :
    ∃ before name type after p, s.schema.entries = before ++ (name, type) :: after ∧
      (∀ x ∈ before, ∃ chain, s.schema.Chain x.1 chain) ∧ type.parent = some p ∧
      ((s.schema.contains p = false ∧ e = .unknownParent name p) ∨
        (s.schema.contains p = true ∧ e = .inheritanceCycle name ∧
          (s.schema.Leaves name ∨ s.schema.Circles name ∧
            ∀ m, s.schema.Under m name → s.schema.contains m = true))) := by
  obtain ⟨before, name, type, after, hentries, hbefore, hnone, he⟩ := registry_error h
  have hget : s.schema.get? name = some type :=
    OrderedMap.get?_eq_some_of_mem (by rw [hentries]; simp)
  rcases hp : type.parent with _ | p
  · exact absurd ⟨_, .root hget hp⟩ hnone
  · refine ⟨before, name, type, after, p, hentries, hbefore, hp, ?_⟩
    rw [stuckError, hp, Option.getD_some] at he
    rcases hcontains : s.schema.contains p with _ | _
    · exact .inl ⟨rfl, by simpa [hcontains] using he⟩
    · refine .inr ⟨rfl, by simpa [hcontains] using he, ?_⟩
      obtain hchain | hleaves | hcircles := Definitions.chain_or_leaves_or_circles hget
      · exact absurd hchain hnone
      · exact .inl hleaves
      · exact .inr ⟨hcircles, fun m hm => hcircles.contains hm⟩

/-- Two types that extend each other. -/
def circle : Settings where
  schema := .ofList [(['A'], ⟨some ['B'], .empty⟩), (['B'], ⟨some ['A'], .empty⟩)]

theorem registry_error_cause_circle :
    circle.registry = .error (.inheritanceCycle ['A']) ∧
      ∃ before name type after p, circle.schema.entries = before ++ (name, type) :: after ∧
        (∀ x ∈ before, ∃ chain, circle.schema.Chain x.1 chain) ∧ type.parent = some p ∧
        ((circle.schema.contains p = false ∧
            SchemaError.inheritanceCycle ['A'] = .unknownParent name p) ∨
          (circle.schema.contains p = true ∧
            SchemaError.inheritanceCycle ['A'] = .inheritanceCycle name ∧
            (circle.schema.Leaves name ∨ circle.schema.Circles name ∧
              ∀ m, circle.schema.Under m name → circle.schema.contains m = true))) := by
  have h : circle.registry = .error (.inheritanceCycle ['A']) := by
    rw [registry, registerAll]
    rfl
  exact ⟨h, registry_error_cause h⟩

/-- A type that extends a declared one, which extends an undeclared one. -/
def undeclaredAbove : Settings where
  schema := .ofList [(['A'], ⟨some ['B'], .empty⟩), (['B'], ⟨some ['C'], .empty⟩)]

/-- A circle is reported where there is none: the way up leaves the declared types. -/
theorem registry_reports_false_circle :
    undeclaredAbove.registry = .error (.inheritanceCycle ['A']) ∧
      undeclaredAbove.schema.Under ['C'] ['A'] ∧ undeclaredAbove.schema.contains ['C'] = false ∧
      ∀ n, ¬ undeclaredAbove.schema.Circles n := by
  have hup : undeclaredAbove.schema.Under ['C'] ['B'] := .sub rfl .self
  have hup' : undeclaredAbove.schema.Under ['C'] ['A'] := .sub rfl hup
  refine ⟨?_, hup', rfl, ?_⟩
  · rw [registry, registerAll]
    rfl
  · rintro n ⟨m, p, hm, hp, hmp⟩
    obtain ⟨type, htype, -⟩ := Definitions.parent?_eq_some.1 hp
    have hentry : (m, type) ∈ [(['A'], ⟨some ['B'], .empty⟩), (['B'], ⟨some ['C'], .empty⟩)] :=
      OrderedMap.mem_entries_of_get? htype
    have hleaves : undeclaredAbove.schema.Under ['C'] m := by
      rcases List.mem_cons.1 hentry with h | h
      · cases h
        exact hup'
      · cases List.mem_singleton.1 h
        exact hup
    obtain ⟨q, hq⟩ := Definitions.Circles.exists_parent ⟨m, p, hm, hp, hmp⟩ (hleaves.trans hm)
    cases hq

end Settings

end Typeahead
