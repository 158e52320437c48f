import Typeahead.Proofs.Ranking
import Typeahead.Proofs.TypedCase

/-!
# A qualified guess leads back to where it was made

The segments of a place are names as the tables have them, whichever case was typed. Such a name is
looked up to the letter first, so it is followed through the same attribute again, even where
another name differs from it in case only (`Path.hop?_of_hop?`). If no name has a dot in it, the
path in front of a qualified guess is cut into the same names, and the walk along it ends at the
same place (`Path.resolve_qualifier`), with the name that was offered as the new fragment
(`Path.guess_stable`).
-/

namespace Typeahead

/-- No attribute has a name with a dot in it. -/
def Schema.Dotless (schema : Schema) : Prop :=
  ∀ type table, schema type = some table → ∀ name ∈ table.keys, '.' ∉ name

namespace Path

variable {schema : Schema} {root segment t name g : Text} {table : AttributeTable} {p : Path}

theorem lookup_of_get? {attr : Attribute} (h : table.get? name = some attr) :
    lookup table name = some (name, attr) := by
  unfold lookup
  rw [h]

/-- The name of a relation, as the table has it, stands for that relation. -/
theorem hop?_of_hop? {hop : Text × Text} (h : hop? table segment = some hop) :
    hop? table hop.1 = some hop := by
  obtain ⟨attr, hget, htarget⟩ := get?_of_hop? h
  rw [hop?, lookup_of_get? hget, Option.bind_some, htarget]
  rfl

theorem mem_keys_of_hop? {hop : Text × Text} (h : hop? table segment = some hop) :
    hop.1 ∈ table.keys := by
  obtain ⟨attr, hget, -⟩ := get?_of_hop? h
  exact OrderedMap.mem_keys_of_get? hget

theorem qualifier_via (name : Text) (p : Path) :
    (p.via [name]).qualifier = name ++ '.' :: p.qualifier := by
  rcases hp : p.segments with _ | ⟨segment, segments⟩
  · simp [qualifier, via, hp, Text.join]
  · simp [qualifier, via, hp, Text.join]

/-- The path to a place, followed by a fragment, leads to that place. -/
theorem resolve_qualifier (hnames : schema.Dotless) (hname : '.' ∉ name)
    (h : resolve schema root t = some p) :
    resolve schema root (p.qualifier ++ name) = some { p with fragment := name } := by
  induction t using Text.dottedInduction generalizing root p with
  | last t hdot =>
    rw [resolve_of_notMem hdot, Option.map_eq_some_iff] at h
    obtain ⟨table, htable, rfl⟩ := h
    show resolve schema root name = _
    rw [resolve_of_notMem hname, htable]
    rfl
  | hop segment rest hdot ih =>
    simp only [resolve_hop hdot, Option.bind_eq_some_iff, Option.map_eq_some_iff] at h
    obtain ⟨table, htable, hop, hhop, place, hplace, rfl⟩ := h
    have hsegment : '.' ∉ hop.1 := hnames root table htable hop.1 (mem_keys_of_hop? hhop)
    rw [qualifier_via, List.append_assoc, List.cons_append, resolve_hop hsegment, htable,
      Option.bind_some, hop?_of_hop? hhop, Option.bind_some, ih hplace]
    rfl

theorem mem_guesses_qualified : g ∈ guesses schema root true t ↔
    ∃ p name, resolve schema root t = some p ∧ name ∈ p.attributes.keys ∧
      Text.lower p.fragment <:+: Text.lower name ∧ p.qualifier ++ name = g := by
  unfold guesses
  split
  · next hnone => simp [hnone]
  · next p hp =>
    simp only [hp, if_true, List.mem_map, mem_matching]
    constructor
    · rintro ⟨name, ⟨hname, hin⟩, rfl⟩
      exact ⟨p, name, rfl, hname, hin, rfl⟩
    · rintro ⟨_, name, ⟨⟩, hname, hin, rfl⟩
      exact ⟨name, ⟨hname, hin⟩, rfl⟩

/-- Let no name have a dot in it. Every qualified guess is the path to the place that the text leads
to, with the name of an attribute of that place. It leads to the same place by the same relations,
has that name as its fragment, and is itself among the guesses that it gives rise to. -/
theorem guess_stable (schema : Schema) (hnames : schema.Dotless) (root t : Text) :
    ∀ g ∈ guesses schema root true t, ∃ p name, resolve schema root t = some p ∧
      name ∈ p.attributes.keys ∧ g = ['.'].intercalate (p.segments ++ [name]) ∧
      resolve schema root g = some { p with fragment := name } ∧
      g ∈ guesses schema root true g := by
  intro g hg
  obtain ⟨p, name, hp, hname, -, rfl⟩ := mem_guesses_qualified.1 hg
  have hdot : '.' ∉ name := hnames _ _ (attributes_of_resolve hp) name hname
  have hresolve : resolve schema root (p.qualifier ++ name) = some { p with fragment := name } :=
    resolve_qualifier hnames hdot hp
  -- A name contains itself, so it is found again.
  have hagain : p.qualifier ++ name ∈ guesses schema root true (p.qualifier ++ name) :=
    mem_guesses_qualified.2 ⟨_, name, hresolve, hname, List.infix_rfl, rfl⟩
  exact ⟨p, name, hp, hname, p.qualifier_append name, hresolve, hagain⟩

theorem guess_stable_twins :
    let t := "dOG.B".toList
    let g := "dog.bowl".toList
    Session.twinSchema.Dotless ∧ g ∈ guesses Session.twinSchema "Person".toList true t ∧
      ∃ p name, resolve Session.twinSchema "Person".toList t = some p ∧
        name ∈ p.attributes.keys ∧ g = ['.'].intercalate (p.segments ++ [name]) ∧
        resolve Session.twinSchema "Person".toList g = some { p with fragment := name } ∧
        g ∈ guesses Session.twinSchema "Person".toList true g := by
  intro t g
  have hnames : Session.twinSchema.Dotless := by
    intro type table h
    unfold Session.twinSchema at h
    split_ifs at h <;> cases h <;> decide
  have hg : g ∈ guesses Session.twinSchema "Person".toList true t := by decide +kernel
  exact ⟨hnames, hg, guess_stable Session.twinSchema hnames "Person".toList t g hg⟩

end Path

end Typeahead
