import Typeahead.Schema.Path

/-!
# Walking a dotted path

A dotted text is a last segment, or a segment, its dot and a dotted text (`Text.dottedInduction`).
Resolving it follows this: a last segment leads nowhere beyond the root (`Path.resolve_of_notMem`),
and a segment before a dot is one hop along the relation that it names, after which the rest is
resolved from the type reached (`Path.resolve_hop`).

Hence resolution composes (`Path.resolve_append`), and it fails in one of three ways: the root is
unknown, or some segment names no relation of the type reached by then, or its relation leads to an
unknown type (`Path.resolve_eq_none_iff`).
-/

namespace Typeahead

namespace Text

theorem splitOn_eq (sep : Char) : ∀ t : Text, splitOn sep t = List.splitOn sep t
  | [] => rfl
  | c :: t => by
    rw [splitOn, splitOn_eq sep t, List.splitOn_cons_eq_if_modifyHead]
    simp only [beq_iff_eq]
    cases h : List.splitOn sep t with
    | nil => exact absurd h (List.splitOn_ne_nil sep t)
    | cons piece pieces => rfl

/-- A dotted text is a last segment, or a segment, its dot and a dotted text. -/
@[elab_as_elim]
theorem dottedInduction {motive : Text → Prop} (last : ∀ t, '.' ∉ t → motive t)
    (hop : ∀ segment rest, '.' ∉ segment → motive rest → motive (segment ++ '.' :: rest))
    (t : Text) : motive t := by
  by_cases hdot : '.' ∈ t
  · obtain ⟨segment, rest, ht, hsegment⟩ := List.eq_append_cons_of_mem hdot
    rw [ht]
    exact hop segment rest hsegment (dottedInduction last hop rest)
  · exact last t hdot
termination_by t.length
decreasing_by
  rw [ht, List.length_append, List.length_cons]
  omega

/-- A text whose segments are all finished: it is empty or ends in a dot. -/
def EndsAtDot (t : Text) : Prop := t = [] ∨ t.getLast? = some '.'

theorem endsAtDot_append_dot {segment rest : Text} :
    EndsAtDot (segment ++ '.' :: rest) ↔ EndsAtDot rest := by
  rcases rest with _ | ⟨c, rest⟩ <;> simp [EndsAtDot]

theorem EndsAtDot.eq_nil {t : Text} (h : EndsAtDot t) (hdot : '.' ∉ t) : t = [] :=
  h.resolve_right fun hlast => hdot (List.mem_of_getLast? hlast)

end Text

namespace Path

variable {schema : Schema} {root segment rest t front : Text} {table : AttributeTable} {p : Path}

/-! ### One hop -/

/-- The place reached by way of other relations first. -/
def via (walked : List Text) (p : Path) : Path := { p with segments := walked ++ p.segments }

@[simp] theorem via_via (walked walked' : List Text) (p : Path) :
    (p.via walked').via walked = p.via (walked ++ walked') := by
  simp [via]

/-- The relation that a segment names: its name and the type it leads to. -/
def hop? (table : AttributeTable) (segment : Text) : Option (Text × Text) :=
  (lookup table segment).bind fun e => e.2.target?.map (e.1, ·)

theorem get?_of_lookup {name : Text} {attr : Attribute}
    (h : lookup table segment = some (name, attr)) : table.get? name = some attr := by
  unfold lookup at h
  split at h
  · next hget =>
    cases h
    exact hget
  · exact OrderedMap.get?_eq_some_of_mem (List.mem_of_find?_eq_some h)

theorem get?_of_hop? {hop : Text × Text} (h : hop? table segment = some hop) :
    ∃ attr, table.get? hop.1 = some attr ∧ attr.target? = some hop.2 := by
  obtain ⟨⟨name, attr⟩, hlookup, hname⟩ := Option.bind_eq_some_iff.1 h
  obtain ⟨target, htarget, rfl⟩ := Option.map_eq_some_iff.1 hname
  exact ⟨attr, get?_of_lookup hlookup, htarget⟩

theorem walk_cons (fragment type segment : Text) (table : AttributeTable)
    (walked segments : List Text) :
    walk schema fragment type table walked (segment :: segments) =
      (hop? table segment).bind fun hop => (schema hop.2).bind fun next =>
        walk schema fragment hop.2 next (walked ++ [hop.1]) segments := by
  rw [walk, hop?]
  rcases lookup table segment with _ | ⟨name, type | target | target⟩
  · rfl
  · rfl
  · simp only [Attribute.target?, Option.bind_some, Option.map_some]
    cases schema target <;> rfl
  · simp only [Attribute.target?, Option.bind_some, Option.map_some]
    cases schema target <;> rfl

theorem walk_eq_map (fragment : Text) : ∀ (segments walked : List Text) (type : Text)
    (table : AttributeTable), walk schema fragment type table walked segments =
      (walk schema fragment type table [] segments).map (via walked)
  | [], walked, type, table => by simp [walk, via]
  | segment :: segments, walked, type, table => by
    rw [walk_cons, walk_cons, Option.map_bind]
    congr 1
    funext hop
    rw [Function.comp_apply, Option.map_bind]
    congr 1
    funext next
    rw [Function.comp_apply, walk_eq_map fragment segments (walked ++ [hop.1]),
      walk_eq_map fragment segments ([] ++ [hop.1]), Option.map_map]
    congr 1
    funext p
    simp

theorem resolve_eq (schema : Schema) (root t : Text) : resolve schema root t =
    (schema root).bind fun table => walk schema ((List.splitOn '.' t).getLastD []) root table []
      (List.splitOn '.' t).dropLast := by
  rw [resolve, Text.splitOn_eq]
  cases schema root <;> rfl

theorem resolve_of_unknown (h : schema root = none) (t : Text) : resolve schema root t = none := by
  rw [resolve_eq, h]
  rfl

/-- Without a dot the place is the root type. -/
theorem resolve_of_notMem (h : '.' ∉ t) :
    resolve schema root t = (schema root).map fun table => ⟨root, [], t, table⟩ := by
  rw [resolve_eq, List.splitOn_eq_singleton h]
  cases schema root <;> rfl

/-- A segment before a dot is one hop, and the rest is resolved from the type reached. -/
theorem resolve_hop (h : '.' ∉ segment) (rest : Text) :
    resolve schema root (segment ++ '.' :: rest) = (schema root).bind fun table =>
      (hop? table segment).bind fun hop => (resolve schema hop.2 rest).map (via [hop.1]) := by
  have hsplit := List.splitOn_append_cons_self_of_not_mem h rest
  obtain ⟨piece, pieces, hrest⟩ := List.exists_cons_of_ne_nil (List.splitOn_ne_nil '.' rest)
  rw [resolve_eq, hsplit, hrest, List.dropLast_cons_cons]
  simp only [walk_cons, walk_eq_map _ _ ([] ++ _), resolve_eq schema _ rest, hrest, Option.map_bind]
  rfl

/-! ### Where a walk leads -/

theorem attributes_of_resolve (h : resolve schema root t = some p) :
    schema p.recordType = some p.attributes := by
  induction t using Text.dottedInduction generalizing root p with
  | last t hdot =>
    rw [resolve_of_notMem hdot, Option.map_eq_some_iff] at h
    obtain ⟨table, htable, rfl⟩ := h
    exact htable
  | hop segment rest hdot ih =>
    simp only [resolve_hop hdot, Option.bind_eq_some_iff, Option.map_eq_some_iff] at h
    obtain ⟨table, -, hop, -, place, hplace, rfl⟩ := h
    exact (ih hplace :)

/-- The fragment is what follows the last dot. -/
theorem fragment_of_resolve (h : resolve schema root t = some p) :
    ∃ front, t = front ++ p.fragment ∧ Text.EndsAtDot front ∧ '.' ∉ p.fragment := by
  induction t using Text.dottedInduction generalizing root p with
  | last t hdot =>
    rw [resolve_of_notMem hdot, Option.map_eq_some_iff] at h
    obtain ⟨table, -, rfl⟩ := h
    exact ⟨[], rfl, .inl rfl, hdot⟩
  | hop segment rest hdot ih =>
    simp only [resolve_hop hdot, Option.bind_eq_some_iff, Option.map_eq_some_iff] at h
    obtain ⟨table, -, hop, -, place, hplace, rfl⟩ := h
    obtain ⟨front, hrest, hfront, hfragment⟩ := ih hplace
    refine ⟨segment ++ '.' :: front, ?_, Text.endsAtDot_append_dot.2 hfront, hfragment⟩
    rw [hrest, List.append_assoc, List.cons_append]
    rfl

/-- What is left of a path is resolved from where its front leads. -/
theorem resolve_append (h : Text.EndsAtDot front) (rest : Text) :
    resolve schema root (front ++ rest) = (resolve schema root front).bind fun place =>
      (resolve schema place.recordType rest).map (via place.segments) := by
  induction front using Text.dottedInduction generalizing root with
  | last front hdot =>
    rw [h.eq_nil hdot, List.nil_append, resolve_of_notMem List.not_mem_nil]
    rcases hroot : schema root with _ | table
    · exact resolve_of_unknown hroot rest
    · rw [Option.map_some, Option.bind_some]
      exact Option.map_id_apply.symm
  | hop segment front hdot ih =>
    rw [List.append_assoc, List.cons_append, resolve_hop hdot, resolve_hop hdot]
    rcases schema root with _ | table
    · rfl
    simp only [Option.bind_some]
    rcases hop? table segment with _ | hop
    · rfl
    simp only [Option.bind_some, ih (Text.endsAtDot_append_dot.1 h)]
    rcases resolve schema hop.2 front with _ | place
    · rfl
    · simp only [Option.bind_some, Option.map_some, Option.map_map]
      rfl

/-- Resolution composes: after a front of finished segments, the rest is resolved from the type
reached, and its relations follow those walked before. -/
theorem resolve_composes (schema : Schema) (root : Text) {front : Text}
    (h : Text.EndsAtDot front) (rest : Text) :
    (resolve schema root front = none → resolve schema root (front ++ rest) = none) ∧
    ∀ place, resolve schema root front = some place → resolve schema root (front ++ rest) =
      (resolve schema place.recordType rest).map fun place' =>
        { place' with segments := place.segments ++ place'.segments } := by
  rw [resolve_append h]
  exact ⟨fun hnone => by rw [hnone]; rfl, fun place hplace => by rw [hplace]; rfl⟩

/-- People, whose friends are people too, and their dogs. -/
def household : Schema := fun type =>
  if type = "Person".toList then some (.ofList [("name".toList, .scalar "String".toList),
    ("bestFriend".toList, .toOne "Person".toList), ("dogs".toList, .toMany "Dog".toList)])
  else if type = "Dog".toList then some (.ofList [("master".toList, .toOne "Person".toList)])
  else none

theorem resolve_composes_household :
    let front := "bestfriend.Dogs.".toList
    Text.EndsAtDot front ∧ ∃ place, resolve household "Person".toList front = some place ∧
      place.recordType = "Dog".toList ∧
      (resolve household "Person".toList (front ++ "master.na".toList)).map (·.segments) =
        some (["bestFriend".toList, "dogs".toList] ++ ["master".toList]) := by
  intro front
  have hfront : Text.EndsAtDot front := .inr (by decide)
  have hplace : (resolve household "Person".toList front).map
      (fun place => (place.recordType, place.segments)) =
        some ("Dog".toList, ["bestFriend".toList, "dogs".toList]) := by decide +kernel
  obtain ⟨place, hresolve, hboth⟩ := Option.map_eq_some_iff.1 hplace
  obtain ⟨htype, hsegments⟩ := Prod.mk.inj hboth
  have hrest : (resolve household "Dog".toList "master.na".toList).map (·.segments) =
      some ["master".toList] := by decide +kernel
  obtain ⟨place', hresolve', hmaster⟩ := Option.map_eq_some_iff.1 hrest
  refine ⟨hfront, place, hresolve, htype, ?_⟩
  rw [(resolve_composes household "Person".toList hfront _).2 place hresolve, htype, hresolve',
    Option.map_some, Option.map_some, hsegments, hmaster]

/-! ### Why a walk ends early -/

theorem lookup_eq_none_iff :
    lookup table segment = none ↔ ∀ name ∈ table.keys, Text.lower name ≠ Text.lower segment := by
  have hfind : (table.entries.find? fun e => Text.lower e.1 = Text.lower segment) = none ↔
      ∀ name ∈ table.keys, Text.lower name ≠ Text.lower segment := by
    simp [OrderedMap.keys]
  unfold lookup
  split
  · next attr hattr =>
    refine iff_of_false (by simp) fun hall => ?_
    exact hall segment (OrderedMap.mem_keys_iff.2 (OrderedMap.contains_iff.2 ⟨attr, hattr⟩)) rfl
  · exact hfind

/-- A segment that leads no further: no attribute has its name, whatever the case of the letters, or
the one that it names is a plain value. -/
def Stops (table : AttributeTable) (segment : Text) : Prop :=
  (∀ name ∈ table.keys, Text.lower name ≠ Text.lower segment) ∨
    ∃ name type, lookup table segment = some (name, .scalar type)

theorem hop?_eq_none_iff : hop? table segment = none ↔ Stops table segment := by
  rw [Stops, ← lookup_eq_none_iff, hop?]
  rcases lookup table segment with _ | ⟨name, attr⟩
  · simp
  · cases attr <;> simp [Attribute.target?]

/-- A walk ends early if the root is unknown or, at the type reached by some front of the path, the
next segment stops or leads to an unknown type. -/
theorem resolve_eq_none_iff : resolve schema root t = none ↔ schema root = none ∨
    ∃ front segment rest place, t = front ++ segment ++ '.' :: rest ∧ Text.EndsAtDot front ∧
      '.' ∉ segment ∧ resolve schema root front = some place ∧
      (Stops place.attributes segment ∨
        ∃ hop, hop? place.attributes segment = some hop ∧ schema hop.2 = none) := by
  constructor
  · intro h
    induction t using Text.dottedInduction generalizing root with
    | last t hdot =>
      rw [resolve_of_notMem hdot, Option.map_eq_none_iff] at h
      exact .inl h
    | hop segment rest hdot ih =>
      rcases hroot : schema root with _ | table
      · exact .inl rfl
      have hstart : resolve schema root [] = some ⟨root, [], [], table⟩ := by
        rw [resolve_of_notMem List.not_mem_nil, hroot]
        rfl
      rcases hhop : hop? table segment with _ | hop
      · exact .inr ⟨[], segment, rest, _, rfl, .inl rfl, hdot, hstart,
          .inl (hop?_eq_none_iff.1 hhop)⟩
      · rw [resolve_hop hdot, hroot, Option.bind_some, hhop, Option.bind_some,
          Option.map_eq_none_iff] at h
        rcases ih h with hunknown | ⟨front, next, rest', place, rfl, hfront, hnext, hplace, hstops⟩
        · exact .inr ⟨[], segment, rest, _, rfl, .inl rfl, hdot, hstart, .inr ⟨hop, hhop, hunknown⟩⟩
        · refine .inr ⟨segment ++ '.' :: front, next, rest', place.via [hop.1], by simp,
            Text.endsAtDot_append_dot.2 hfront, hnext, ?_, hstops⟩
          rw [resolve_hop hdot, hroot, Option.bind_some, hhop, Option.bind_some, hplace]
          rfl
  · rintro (hunknown | ⟨front, segment, rest, place, rfl, hfront, hsegment, hplace, hstops⟩)
    · exact resolve_of_unknown hunknown t
    · rw [List.append_assoc, resolve_append hfront, hplace, Option.bind_some, resolve_hop hsegment,
        attributes_of_resolve hplace, Option.bind_some]
      rcases hstops with hstops | ⟨hop, hhop, hunknown⟩
      · rw [hop?_eq_none_iff.2 hstops]
        rfl
      · rw [hhop, Option.bind_some, resolve_of_unknown hunknown]
        rfl

end Path

end Typeahead
