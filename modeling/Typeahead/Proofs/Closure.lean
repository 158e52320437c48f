import Typeahead.Proofs.GuessCommand
import Typeahead.Proofs.Walking

/-!
# Checked settings have a closed schema

The check looks at the relations that each declared type has itself (`Settings.closed_of_check`). A
table also has inherited ones, but whatever stands in it was declared by a type on the way up
(`Definitions.exists_of_get?_merged`), so that all tables of the registry are closed: their
relations lead to types that have tables too.

In a closed schema a walk from a known type never meets an unknown one. Where it ends early, some
segment names no attribute of the type reached by then, or a plain value
(`Schema.Closed.resolve_eq_none_iff`).
-/

namespace Typeahead

/-- The relations of every type lead to types that are known too. -/
def Schema.Closed (schema : Schema) : Prop :=
  ∀ type table, schema type = some table → ∀ name attr target, table.get? name = some attr →
    attr.target? = some target → (schema target).isSome = true

theorem Schema.Closed.resolve_eq_none_iff {schema : Schema} (h : schema.Closed) {root : Text}
    (hroot : (schema root).isSome = true) (t : Text) :
    Path.resolve schema root t = none ↔ ∃ front segment rest place,
      t = front ++ segment ++ '.' :: rest ∧ Text.EndsAtDot front ∧ '.' ∉ segment ∧
      Path.resolve schema root front = some place ∧ Path.Stops place.attributes segment := by
  have hknown : schema root ≠ none := Option.isSome_iff_ne_none.1 hroot
  rw [Path.resolve_eq_none_iff, or_iff_right hknown]
  constructor
  · rintro ⟨front, segment, rest, place, ht, hfront, hdot, hplace, hstops | ⟨hop, hhop, hnone⟩⟩
    · exact ⟨front, segment, rest, place, ht, hfront, hdot, hplace, hstops⟩
    · obtain ⟨attr, hattr, htarget⟩ := Path.get?_of_hop? hhop
      have hsome := h _ _ (Path.attributes_of_resolve hplace) _ _ _ hattr htarget
      rw [hnone] at hsome
      cases hsome
  · rintro ⟨front, segment, rest, place, ht, hfront, hdot, hplace, hstops⟩
    exact ⟨front, segment, rest, place, ht, hfront, hdot, hplace, .inl hstops⟩

namespace Definitions

variable {d : Definitions} {n : Text} {chain : List RecordType}

theorem Chain.get?_of_mem (h : d.Chain n chain) : ∀ type ∈ chain, ∃ m, d.get? m = some type := by
  induction h with
  | root htype _ =>
    intro type hmem
    rw [List.mem_singleton.1 hmem]
    exact ⟨_, htype⟩
  | child htype _ _ ih =>
    intro type hmem
    rcases List.mem_cons.1 hmem with rfl | hmem
    · exact ⟨_, htype⟩
    · exact ih type hmem

/-- Every attribute found along a chain is declared by one of its types. -/
theorem exists_of_get?_merged {name : Text} {attr : Attribute} : ∀ {chain : List RecordType},
    (merged chain).get? name = some attr → ∃ type ∈ chain, type.attributes.get? name = some attr
  | type :: chain, h => by
    have hover : (merged (type :: chain)).get? name =
        (type.attributes.get? name).or ((merged chain).get? name) := OrderedMap.get?_insertAll _ _ _
    rw [hover, Option.or_eq_some_iff] at h
    rcases h with hown | ⟨-, habove⟩
    · exact ⟨type, List.mem_cons_self, hown⟩
    · obtain ⟨above, hmem, hattr⟩ := exists_of_get?_merged habove
      exact ⟨above, List.mem_cons_of_mem type hmem, hattr⟩

/-- The relations that types have themselves lead to declared types. -/
def Closed (d : Definitions) : Prop :=
  ∀ n type, d.get? n = some type → ∀ name attr target, type.attributes.get? name = some attr →
    attr.target? = some target → d.contains target = true

end Definitions

namespace Settings

variable {s : Settings} {r : Registry}

theorem contains_of_danglingAttribute? {declared : Definitions} {type : RecordType}
    (h : danglingAttribute? declared type = none) {name target : Text} {attr : Attribute}
    (hattr : type.attributes.get? name = some attr) (htarget : attr.target? = some target) :
    declared.contains target = true := by
  have hentry := List.findSome?_eq_none_iff.1 h _ (OrderedMap.mem_entries_of_get? hattr)
  simpa [htarget] using hentry

theorem closed_of_check
    (h : (s.schema.entries.findSome? fun (name, type) => danglingField? s.schema name type) = none) :
    s.schema.Closed := by
  intro n type htype name attr target hattr htarget
  have hfield := List.findSome?_eq_none_iff.1 h _ (OrderedMap.mem_entries_of_get? htype)
  simp only [danglingField?] at hfield
  split at hfield
  · cases hfield
  · exact contains_of_danglingAttribute? (Option.map_eq_none_iff.1 hfield) hattr htarget

theorem contains_of_danglingRoot? (h : s.danglingRoot? = none) {root : Text}
    (hroot : s.guesser.root = some root) : s.schema.contains root = true := by
  rw [danglingRoot?, hroot, Option.map_eq_none_iff] at h
  simpa [Option.filter] using h

theorem contains_registry (hr : s.registry = .ok r) (n : Text) :
    r.contains n = s.schema.contains n := by
  rw [Registry.contains, OrderedMap.contains, (registering_of_ok hr).get?_eq]
  rfl

theorem exists_table (hr : s.registry = .ok r) {n : Text} (hn : r.contains n = true) :
    ∃ chain, s.schema.Chain n chain ∧ r.schema n = some (Definitions.merged chain) := by
  have hreg := registering_of_ok hr
  rw [contains_registry hr] at hn
  obtain ⟨type, htype⟩ := OrderedMap.contains_iff.1 hn
  obtain ⟨chain, hchain⟩ := hreg.exists_chain htype
  exact ⟨chain, hchain, hreg.registered.table n chain hchain⟩

theorem isSome_schema (hr : s.registry = .ok r) (n : Text) :
    (r.schema n).isSome = r.contains n := by
  rcases hn : r.contains n with _ | _
  · have hnone : s.schema.get? n = none := by
      rw [contains_registry hr] at hn
      simpa [OrderedMap.contains] using hn
    rw [Registry.schema, (registering_of_ok hr).registered.unknown n hnone]
    rfl
  · obtain ⟨chain, -, htable⟩ := exists_table hr hn
    rw [htable]
    rfl

/-- What stands in a table was declared by some type, whose relations lead to known types. -/
theorem closed_table (hr : s.registry = .ok r) (hclosed : s.schema.Closed) {type : Text}
    (htype : r.contains type = true) : ∃ table, r.schema type = some table ∧
      ∀ name attr target, table.get? name = some attr → attr.target? = some target →
        r.contains target = true := by
  obtain ⟨chain, hchain, htable⟩ := exists_table hr htype
  refine ⟨_, htable, fun name attr target hattr htarget => ?_⟩
  obtain ⟨declaring, hmem, hown⟩ := Definitions.exists_of_get?_merged hattr
  obtain ⟨m, hm⟩ := hchain.get?_of_mem declaring hmem
  rw [contains_registry hr]
  exact hclosed m declaring hm name attr target hown htarget

theorem closed_schema (hr : s.registry = .ok r) (hclosed : s.schema.Closed) :
    r.schema.Closed := by
  intro type table htable name attr target hattr htarget
  have htype : r.contains type = true := by
    rw [← isSome_schema hr, htable]
    rfl
  obtain ⟨table', htable', hknown⟩ := closed_table hr hclosed htype
  cases htable.symm.trans htable'
  rw [isSome_schema hr]
  exact hknown name attr target hattr htarget

/-- Settings that pass their check have options and a registry. The root type is known in it, and
the relations of every known type, inherited ones included, lead to known types. So a walk from a
known type ends early exactly where some segment names no attribute of the type reached by then, or
a plain value. -/
theorem check_closes_schema (h : s.check = .ok ()) :
    ∃ r options, s.registry = .ok r ∧ s.options = .ok options ∧
      (∀ root, s.guesser.root = some root → r.contains root = true) ∧
      (∀ type, r.contains type = true → ∃ table, r.schema type = some table ∧
        ∀ name attr target, table.get? name = some attr → attr.target? = some target →
          r.contains target = true) ∧
      ∀ type t, r.contains type = true → (Path.resolve r.schema type t = none ↔
        ∃ front segment rest place, t = front ++ segment ++ '.' :: rest ∧ Text.EndsAtDot front ∧
          '.' ∉ segment ∧ Path.resolve r.schema type front = some place ∧
          ((∀ name ∈ place.attributes.keys, Text.lower name ≠ Text.lower segment) ∨
            ∃ name value, Path.lookup place.attributes segment = some (name, .scalar value))) := by
  obtain ⟨⟨kinds, hkinds⟩, hroot, hfields, r, hr⟩ := check_eq_ok.1 h
  have hclosed : s.schema.Closed := closed_of_check hfields
  refine ⟨r, _, hr, by rw [options, hkinds], fun root hset => ?_,
    fun type htype => closed_table hr hclosed htype, fun type t htype => ?_⟩
  · rw [contains_registry hr]
    exact contains_of_danglingRoot? hroot hset
  · exact (closed_schema hr hclosed).resolve_eq_none_iff (by rw [isSome_schema hr, htype]) t

/-- Students are people, who have dogs. -/
def campus : Settings where
  guesser := { root := some "Student".toList }
  schema := .ofList
    [("Student".toList, ⟨some "Person".toList, .ofList [("school".toList, .scalar "s".toList)]⟩),
      ("Person".toList, ⟨none, .ofList [("dogs".toList, .toMany "Dog".toList)]⟩),
      ("Dog".toList, ⟨none, .ofList [("owner".toList, .toOne "Student".toList)]⟩)]

theorem check_closes_schema_inherited :
    campus.check = .ok () ∧ ∃ r table, campus.registry = .ok r ∧
      r.contains "Student".toList = true ∧ r.schema "Student".toList = some table ∧
      table.get? "dogs".toList = some (.toMany "Dog".toList) ∧ r.contains "Dog".toList = true := by
  have hperson : campus.schema.Chain "Person".toList _ := .root rfl rfl
  have hstudent : campus.schema.Chain "Student".toList _ := .child rfl rfl hperson
  have hdog : campus.schema.Chain "Dog".toList _ := .root rfl rfl
  have hregistry : ∃ r, campus.registry = .ok r := by
    refine (registry_isOk_iff campus).2 fun name hname => ?_
    have hnames : name ∈ ["Student".toList, "Person".toList, "Dog".toList] := hname
    simp only [List.mem_cons, List.not_mem_nil, or_false] at hnames
    rcases hnames with rfl | rfl | rfl
    exacts [⟨_, hstudent⟩, ⟨_, hperson⟩, ⟨_, hdog⟩]
  have hcheck : campus.check = .ok () := check_eq_ok.2 ⟨⟨_, rfl⟩, rfl, rfl, hregistry⟩
  obtain ⟨r, options, hr, -, hroot, htables, -⟩ := check_closes_schema hcheck
  have hknown : r.contains "Student".toList = true := hroot _ rfl
  obtain ⟨table, htable, htargets⟩ := htables _ hknown
  have hmerged : r.schema "Student".toList = some _ :=
    (registering_of_ok hr).registered.table _ _ hstudent
  have hdogs : table.get? "dogs".toList = some (.toMany "Dog".toList) := by
    rw [hmerged] at htable
    cases htable
    rfl
  exact ⟨hcheck, r, table, hr, hknown, htable, hdogs, htargets _ _ _ hdogs rfl⟩

end Settings

end Typeahead
