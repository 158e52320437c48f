import Typeahead.Schema.Definitions

/-!
# The schema registry

A registry holds the definitions of record types and a cache of flattened attribute tables. A table
enters the cache when it is first asked for; a change to a type drops its table and the tables of
every type that inherits from it, so that a lookup never answers with a stale one.
-/

namespace Typeahead

/-- Flattened tables that have been asked for. -/
abbrev TableCache := OrderedMap Text AttributeTable

/-- Record types and the tables computed from them so far. -/
structure Registry where
  definitions : Definitions
  cache : TableCache

namespace Registry

/-- The registry without record types. -/
def empty : Registry := ⟨.empty, .empty⟩

/-- The cache without the tables of the `pending` types and of their subtypes, those already `seen`
left out. -/
def dropTables (d : Definitions) (seen : List Text) (cache : TableCache) :
    List Text → TableCache
  | [] => cache
  | name :: pending =>
    if name ∈ seen then dropTables d seen cache pending
    else dropTables d (name :: seen) (cache.erase name) (d.subtypes name ++ pending)
termination_by pending => ((d.mentioned.filter (· ∉ seen)).length, pending.length)
decreasing_by
  · simp [Prod.lex_def]
  · rename_i hs
    by_cases hn : name ∈ d.mentioned
    · exact Prod.Lex.left _ _ (length_filter_cons_lt hn hs)
    · have hsub : d.subtypes name = [] := by
        cases h : d.subtypes name with
        | nil => rfl
        | cons m ms =>
          exact absurd (Definitions.mem_mentioned_of_mem_subtypes (n := name) (m := m)
            (by simp [h])) hn
      have hfilter : d.mentioned.filter (· ∉ name :: seen) = d.mentioned.filter (· ∉ seen) := by
        apply List.filter_congr
        intro x hx
        have : x ≠ name := fun e => hn (e ▸ hx)
        simp [this]
      rw [hfilter, hsub]
      exact Prod.Lex.right _ (by simp)

/-- The registry without the cached tables of `name` and of every type that inherits from it. -/
def invalidate (r : Registry) (name : Text) : Registry :=
  { r with cache := dropTables r.definitions [] r.cache [name] }

/-- The registry with a new definition of `name`. -/
def put (r : Registry) (name : Text) (type : RecordType) : Registry :=
  { r with definitions := r.definitions.insert name type }.invalidate name

@[simp] theorem put_definitions (r : Registry) (name : Text) (type : RecordType) :
    (r.put name type).definitions = r.definitions.insert name type := rfl

/-- Defines, or redefines, a type without a parent. -/
def define (r : Registry) (name : Text) (attributes : AttributeTable) : Registry :=
  r.put name ⟨none, attributes⟩

/-- Defines, or redefines, a type that extends `parent`. The parent has to be known and must not
inherit from the type. -/
def extend (r : Registry) (parent name : Text) (attributes : AttributeTable) :
    Except SchemaError Registry :=
  if !r.definitions.contains parent then .error (.unknownParent name parent)
  else if r.definitions.inherits parent name then .error (.inheritanceCycle name)
  else .ok (r.put name ⟨some parent, attributes⟩)

/-- Adds or replaces attributes of a known type. -/
def reopen (r : Registry) (name : Text) (attributes : AttributeTable) :
    Except SchemaError Registry :=
  match r.definitions.get? name with
  | none => .error (.unknownType name)
  | some type =>
    .ok (r.put name { type with attributes := type.attributes.insertAll attributes.entries })

/-- Whether a type is known. -/
def contains (r : Registry) (name : Text) : Bool := r.definitions.contains name

/-- The known types in the order of their first definition. -/
def recordTypes (r : Registry) : List Text := r.definitions.keys

/-- The types that extend `name`. -/
def subtypes (r : Registry) (name : Text) : List Text := r.definitions.subtypes name

/-- The type that `name` extends. -/
def parent? (r : Registry) (name : Text) : Option Text := r.definitions.parent? name

/-- The attributes of a type, inherited ones included, and the registry that remembers them. -/
def attributes (r : Registry) (name : Text) : Option AttributeTable × Registry :=
  match r.cache.get? name with
  | some table => (some table, r)
  | none =>
    match r.definitions.flatten name with
    | some table => (some table, { r with cache := r.cache.insert name table })
    | none => (none, r)

/-- The registry as path walks see it. -/
def schema (r : Registry) : Schema := fun name => (r.attributes name).1

end Registry

end Typeahead
