import Typeahead.Proofs.Dropping

/-!
# The cache of tables cannot be seen

A table is flattened from a type and its ancestors, so a new definition of a type changes the tables
of the types under it and no others (`Definitions.flatten_insert`). Dropping tables follows the
subtypes of the definitions as they are now and reaches all of these (`Registry.get?_dropTables`),
whichever parents they had when their tables were made.

Hence every table in the cache is the one that would be computed now (`Registry.Current`), and a
registry replies to any requests like definitions without a cache (`Registry.cache_unobservable`).
-/

namespace Typeahead

namespace Definitions

variable {d : Definitions} {name n p : Text} {type : RecordType}

theorem lineageFrom_eq (d : Definitions) (seen : List Text) (n : Text) :
    d.lineageFrom seen n = if n ∈ seen then some [] else (d.get? n).bind fun type =>
      match type.parent with
      | none => some [type]
      | some p => (d.lineageFrom (n :: seen) p).map (type :: ·) := by
  rw [lineageFrom]
  split_ifs
  · rfl
  · split
    · next h => rw [h]; rfl
    · next h => rw [h]; rfl

/-- A walk that does not meet `name` does not notice its definition. -/
theorem lineageFrom_insert {d' : Definitions} (hd : d' = d.insert name type) (seen : List Text)
    (h : ¬ d'.Under name n) : d'.lineageFrom seen n = d.lineageFrom seen n := by
  have hget : ∀ {n}, ¬ d'.Under name n → d'.get? n = d.get? n := by
    intro n h
    rw [hd, OrderedMap.get?_insert, if_neg]
    rintro rfl
    exact h .self
  have hparent : ∀ {n type p}, d'.get? n = some type → type.parent = some p →
      ¬ d'.Under name n → ¬ d'.Under name p := by
    intro n type p htype hp h hup
    refine h (.sub ?_ hup)
    rw [parent?, htype]
    exact hp
  -- The walk is the one in the new definitions: only these tell which types are under `name`.
  induction seen, n using lineageFrom.induct (d := d') with
  | case1 seen n hseen => rw [lineageFrom_eq, lineageFrom_eq d, if_pos hseen, if_pos hseen]
  | case2 seen n hseen hnone =>
    rw [lineageFrom_eq, lineageFrom_eq d, ← hget h, hnone]
    rfl
  | case3 seen n hseen type htype hroot =>
    rw [lineageFrom_eq, lineageFrom_eq d, ← hget h, htype]
    simp only [Option.bind_some, hroot]
  | case4 seen n hseen type htype p hp ih =>
    rw [lineageFrom_eq, lineageFrom_eq d, ← hget h, htype]
    simp only [Option.bind_some, hp, ih (hparent htype hp h)]

theorem flatten_insert (h : ¬ Under (d.insert name type) name n) :
    flatten (d.insert name type) n = d.flatten n := by
  rw [flatten, flatten, lineage, lineage, lineageFrom_insert rfl [] h]

end Definitions

namespace Registry

variable {r : Registry}

/-- Every table in the cache is the one computed from the present definitions. -/
def Current (r : Registry) : Prop :=
  ∀ n table, r.cache.get? n = some table → r.definitions.flatten n = some table

theorem Current.put (h : r.Current) (name : Text) (type : RecordType) :
    (r.put name type).Current := by
  intro n table htable
  -- A table that is left is that of a type which is not under `name`.
  obtain ⟨hold, hnot⟩ := get?_dropTables.1 htable
  exact (Definitions.flatten_insert hnot).trans (h n table hold)

theorem Current.attributes (h : r.Current) (name : Text) :
    (r.attributes name).1 = r.definitions.flatten name ∧
      (r.attributes name).2.definitions = r.definitions ∧ (r.attributes name).2.Current := by
  unfold Registry.attributes
  split
  · next table htable => exact ⟨(h name table htable).symm, rfl, h⟩
  · split
    · next table htable =>
      refine ⟨htable.symm, rfl, fun n table' hn => ?_⟩
      rw [OrderedMap.get?_insert] at hn
      split_ifs at hn with hname
      · cases hn
        rw [hname]
        exact htable
      · exact h n table' hn
    · next hnone => exact ⟨hnone.symm, rfl, h⟩

end Registry

/-! ### Requests and replies -/

namespace Registry

/-- What can be asked of a registry. -/
inductive Request
  | define (name : Text) (attributes : AttributeTable)
  | extend (parent name : Text) (attributes : AttributeTable)
  | reopen (name : Text) (attributes : AttributeTable)
  | attributes (name : Text)
  | contains (name : Text)
  | recordTypes
  | subtypes (name : Text)
  | parent (name : Text)

/-- What a request is replied with. -/
inductive Reply
  | done (result : Except SchemaError Unit)
  | table (table : Option AttributeTable)
  | known (known : Bool)
  | names (names : List Text)
  | parent (parent : Option Text)

/-- The reply to a change, and the registry after it. -/
def changed (r : Registry) : Except SchemaError Registry → Reply × Registry
  | .ok r' => (.done (.ok ()), r')
  | .error e => (.done (.error e), r)

/-- The reply to a request, and the registry after it. -/
def serve (r : Registry) : Request → Reply × Registry
  | .define name attributes => r.changed (.ok (r.define name attributes))
  | .extend parent name attributes => r.changed (r.extend parent name attributes)
  | .reopen name attributes => r.changed (r.reopen name attributes)
  | .attributes name => (.table (r.attributes name).1, (r.attributes name).2)
  | .contains name => (.known (r.contains name), r)
  | .recordTypes => (.names r.recordTypes, r)
  | .subtypes name => (.names (r.subtypes name), r)
  | .parent name => (.parent (r.parent? name), r)

/-- The replies to some requests, one after the other, and the registry after them. -/
def serveAll (r : Registry) : List Request → List Reply × Registry
  | [] => ([], r)
  | request :: requests =>
    ((r.serve request).1 :: ((r.serve request).2.serveAll requests).1,
      ((r.serve request).2.serveAll requests).2)

end Registry

namespace Definitions

open Registry (Request Reply)

/-- The reply of definitions without a cache: every table is computed when it is asked for. -/
def serve (d : Definitions) : Request → Reply × Definitions
  | .define name attributes => (.done (.ok ()), d.insert name ⟨none, attributes⟩)
  | .extend parent name attributes =>
    if !d.contains parent then (.done (.error (.unknownParent name parent)), d)
    else if d.inherits parent name then (.done (.error (.inheritanceCycle name)), d)
    else (.done (.ok ()), d.insert name ⟨some parent, attributes⟩)
  | .reopen name attributes =>
    match d.get? name with
    | none => (.done (.error (.unknownType name)), d)
    | some type => (.done (.ok ()),
        d.insert name { type with attributes := type.attributes.insertAll attributes.entries })
  | .attributes name => (.table (d.flatten name), d)
  | .contains name => (.known (d.contains name), d)
  | .recordTypes => (.names d.keys, d)
  | .subtypes name => (.names (d.subtypes name), d)
  | .parent name => (.parent (d.parent? name), d)

/-- The replies to some requests, one after the other, and the definitions after them. -/
def serveAll (d : Definitions) : List Request → List Reply × Definitions
  | [] => ([], d)
  | request :: requests =>
    ((d.serve request).1 :: ((d.serve request).2.serveAll requests).1,
      ((d.serve request).2.serveAll requests).2)

end Definitions

namespace Registry

variable {r : Registry}

/-- One request: the cache makes no difference to the reply, and stays current. -/
theorem Current.serve (h : r.Current) (request : Request) :
    (r.serve request).1 = (r.definitions.serve request).1 ∧
      (r.serve request).2.definitions = (r.definitions.serve request).2 ∧
      (r.serve request).2.Current := by
  cases request with
  | define name attributes => exact ⟨rfl, rfl, h.put _ _⟩
  | extend parent name attributes =>
    simp only [Registry.serve, Definitions.serve, Registry.extend]
    split_ifs
    · exact ⟨rfl, rfl, h⟩
    · exact ⟨rfl, rfl, h⟩
    · exact ⟨rfl, rfl, h.put _ _⟩
  | reopen name attributes =>
    simp only [Registry.serve, Definitions.serve, Registry.reopen]
    rcases r.definitions.get? name with _ | type
    · exact ⟨rfl, rfl, h⟩
    · exact ⟨rfl, rfl, h.put _ _⟩
  | attributes name =>
    obtain ⟨htable, hdefinitions, hcurrent⟩ := h.attributes name
    exact ⟨congrArg Reply.table htable, hdefinitions, hcurrent⟩
  | contains | recordTypes | subtypes | parent => exact ⟨rfl, rfl, h⟩

theorem Current.serveAll : ∀ {r : Registry}, r.Current → ∀ requests : List Request,
    (r.serveAll requests).1 = (r.definitions.serveAll requests).1 ∧
      (r.serveAll requests).2.definitions = (r.definitions.serveAll requests).2 ∧
      (r.serveAll requests).2.Current
  | r, h, [] => ⟨rfl, rfl, h⟩
  | r, h, request :: requests => by
    obtain ⟨hreply, hdefinitions, hcurrent⟩ := h.serve request
    obtain ⟨hreplies, hrest⟩ := hcurrent.serveAll requests
    rw [hdefinitions] at hreplies hrest
    refine ⟨?_, hrest⟩
    rw [Registry.serveAll, Definitions.serveAll, hreply, hreplies]

/-- A registry that starts empty replies to any requests like definitions without a cache, and
whatever was asked of it, each table in its cache is the one computed from the definitions it has
now. -/
theorem cache_unobservable (requests : List Request) :
    (empty.serveAll requests).1 = (Definitions.serveAll .empty requests).1 ∧
      ∀ n table, (empty.serveAll requests).2.cache.get? n = some table →
        (empty.serveAll requests).2.definitions.flatten n = some table := by
  have hempty : empty.Current := by
    intro n table h
    cases h
  obtain ⟨hreplies, -, hcurrent⟩ := hempty.serveAll requests
  exact ⟨hreplies, hcurrent⟩

end Registry

end Typeahead
