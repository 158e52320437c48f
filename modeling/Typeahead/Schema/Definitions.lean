import Typeahead.Schema.Attribute

/-!
# Record type definitions

A record type may extend a parent and then has the parent's attributes too. `lineage` follows the
parents, `flatten` merges the attributes met on the way, farthest ancestor first, and `inherits`
tells whether one type is met on the way up from another. Each walk stops where it would come round
a second time, so all three are defined for cyclic parents as well.
-/

namespace Typeahead

/-- A record type as it was declared. -/
structure RecordType where
  parent : Option Text := none
  attributes : AttributeTable

/-- The record types of a schema in the order in which they were first defined. -/
abbrev Definitions := OrderedMap Text RecordType

theorem length_filter_cons_lt {names seen : List Text} {n : Text} (hn : n ∈ names)
    (hs : n ∉ seen) :
    (names.filter (· ∉ n :: seen)).length < (names.filter (· ∉ seen)).length := by
  have h : names.filter (· ∉ n :: seen) = (names.filter (· ∉ seen)).filter (· ≠ n) := by
    rw [List.filter_filter]
    congr 1
    funext x
    by_cases hx : x = n <;> by_cases hx' : x ∈ seen <;> simp [hx, hx']
  rw [h]
  refine List.length_filter_lt_length_iff_exists.mpr ⟨n, ?_, by simp⟩
  simp [hn, hs]

theorem OrderedMap.mem_keys_of_get? {α β : Type} [DecidableEq α] {m : OrderedMap α β} {a : α}
    {b : β} (h : m.get? a = some b) : a ∈ m.keys :=
  List.mem_map_of_mem (mem_entries_of_get? h)

namespace Definitions

/-- The parent that a type extends. -/
def parent? (d : Definitions) (name : Text) : Option Text := (d.get? name).bind (·.parent)

/-- The types that extend `name`, in order. -/
def subtypes (d : Definitions) (name : Text) : List Text :=
  (d.entries.filter fun e => e.2.parent = some name).map Prod.fst

/-- The type and its ancestors, nearest first, without those already `seen`. There is none if a type
on the way is not defined. -/
def lineageFrom (d : Definitions) (seen : List Text) (name : Text) : Option (List RecordType) :=
  if _ : name ∈ seen then some []
  else match _ : d.get? name with
    | none => none
    | some type =>
      match type.parent with
      | none => some [type]
      | some parent => (lineageFrom d (name :: seen) parent).map (type :: ·)
termination_by (d.keys.filter (· ∉ seen)).length
decreasing_by exact length_filter_cons_lt (OrderedMap.mem_keys_of_get? ‹_›) ‹_›

/-- The type and its ancestors, nearest first. -/
def lineage (d : Definitions) (name : Text) : Option (List RecordType) := lineageFrom d [] name

/-- The attributes of a type: its ancestors' and its own, a nearer one replacing a farther one in
place. -/
def flatten (d : Definitions) (name : Text) : Option AttributeTable :=
  (d.lineage name).map fun chain =>
    chain.reverse.foldl (fun table type => table.insertAll type.attributes.entries) .empty

/-- Whether `ancestor` is met on the way up from `name`, before a type already `seen`. -/
def inheritsFrom (d : Definitions) (ancestor : Text) (seen : List Text) (name : Text) : Bool :=
  if name = ancestor then true
  else if _ : name ∈ seen then false
  else match _ : d.get? name with
    | none => false
    | some type =>
      match type.parent with
      | none => false
      | some parent => inheritsFrom d ancestor (name :: seen) parent
termination_by (d.keys.filter (· ∉ seen)).length
decreasing_by exact length_filter_cons_lt (OrderedMap.mem_keys_of_get? ‹_›) ‹_›

/-- Whether a type is `ancestor` or inherits from it. -/
def inherits (d : Definitions) (name ancestor : Text) : Bool := inheritsFrom d ancestor [] name

/-- Every name that is defined or extended. -/
def mentioned (d : Definitions) : List Text := d.keys ++ d.entries.filterMap (·.2.parent)

theorem mem_mentioned_of_mem_subtypes {d : Definitions} {n m : Text} (h : m ∈ d.subtypes n) :
    n ∈ d.mentioned := by
  simp only [subtypes, List.mem_map, List.mem_filter, decide_eq_true_eq] at h
  obtain ⟨e, ⟨he, hp⟩, -⟩ := h
  exact List.mem_append_right _ (List.mem_filterMap.mpr ⟨e, he, hp⟩)

end Definitions

end Typeahead
