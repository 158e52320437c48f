import Typeahead.Proofs.Tables
import Typeahead.Settings.Toml

/-!
# Settings read back from their document

Settings written as a document and read again are the same settings, except that in each record type
the relations come after the other attributes (`ofToml_toToml`), which no look-up notices
(`RecordType.get?_arranged`). The document is put together to `rootEntries`: the tables of a record
type add one entry to the schema, with or without a header of its own (`foldlM_typeBlocks`), and
each kind of section is then read from its entries. The only names that cannot be written are
attributes called `_extends`, since the parent is written there.
-/

namespace Typeahead

/-- The attributes in the order in which they are written: the relations come last. -/
def arrange (es : List (Text × Attribute)) : List (Text × Attribute) :=
  es.filter (!·.2.isRelation) ++ es.filter (·.2.isRelation)

theorem arrange_perm (es : List (Text × Attribute)) : (arrange es).Perm es := by
  have h := List.filter_append_perm (fun e : Text × Attribute => !e.2.isRelation) es
  simpa [arrange] using h

/-- The record type with its attributes arranged. -/
def RecordType.arranged (type : RecordType) : RecordType :=
  ⟨type.parent, .ofList (arrange type.attributes.entries)⟩

/-- The same parent and the same attributes, whatever their order. -/
structure RecordType.Same (a b : RecordType) : Prop where
  parent : a.parent = b.parent
  attributes : ∀ name, a.attributes.get? name = b.attributes.get? name

theorem RecordType.get?_arranged (type : RecordType) (name : Text) :
    type.arranged.attributes.get? name = type.attributes.get? name := by
  have hperm := arrange_perm type.attributes.entries
  refine OrderedMap.get?_congr (fun e => ?_) name
  have hnodup := (hperm.map Prod.fst).nodup_iff.mpr type.attributes.nodup
  rw [arranged, OrderedMap.entries_ofList hnodup]
  exact hperm.mem_iff

namespace Settings

open Toml (Block Field Value Entries)

/-! ## What is written -/

theorem relationBlock?_cons (key : Text) (path : Toml.KeyPath) (e : Text × Attribute) :
    relationBlock? (key :: path) e = (relationBlock? path e).map (Block.under key) := by
  obtain ⟨name, type | target | target⟩ := e <;> rfl

/-- The lines of a record type's own table. -/
def typeFields (type : RecordType) : List (Text × Field) :=
  type.parent.toList.map (fun p => (parentKey, .text p)) ++
    type.attributes.entries.filterMap scalarField?

/-- The tables of a record type's relations, inside its own. -/
def relationBlocks (type : RecordType) : List Block :=
  type.attributes.entries.filterMap (relationBlock? [])

/-- Whether a record type's own table is left out. -/
def relationsOnly (type : RecordType) : Bool :=
  (typeFields type).isEmpty && !(relationBlocks type).isEmpty

/-- The tables of a record type, inside the schema. -/
def typeBlocks (e : Text × RecordType) : List Block :=
  (if relationsOnly e.2 then [] else [⟨[e.1], typeFields e.2⟩]) ++
    (relationBlocks e.2).map (Block.under e.1)

theorem header_ne_nil_of_mem_typeBlocks {e : Text × RecordType} {b : Block}
    (h : b ∈ typeBlocks e) : b.header ≠ [] := by
  unfold typeBlocks at h
  rcases List.mem_append.mp h with h | h
  · split_ifs at h
    · cases h
    · cases List.mem_singleton.mp h
      simp
  · obtain ⟨c, -, rfl⟩ := List.mem_map.mp h
    simp [Block.under]

theorem recordBlocks_eq (e : Text × RecordType) :
    recordBlocks e.1 e.2 = (typeBlocks e).map (Block.under "schema".toList) := by
  have hrelations : e.2.attributes.entries.filterMap (relationBlock? ["schema".toList, e.1]) =
      ((relationBlocks e.2).map (Block.under e.1)).map (Block.under "schema".toList) := by
    rw [relationBlocks, List.map_filterMap, List.map_filterMap]
    congr 1
    funext a
    rw [relationBlock?_cons, relationBlock?_cons]
  have hfields : e.2.parent.toList.map (fun p => (parentKey, Field.text p)) ++
      e.2.attributes.entries.filterMap scalarField? = typeFields e.2 := rfl
  have honly : ((typeFields e.2).isEmpty && !(relationBlocks e.2).isEmpty) = relationsOnly e.2 :=
    rfl
  simp only [recordBlocks, hrelations, hfields, List.isEmpty_map, honly, typeBlocks,
    List.map_append]
  split_ifs <;> rfl

/-! ## What is read -/

theorem mapM_map_eq_some {α β γ : Type} {entry : α → β} {f : β → Option γ} {g : α → γ} :
    ∀ {xs : List α}, (∀ x ∈ xs, f (entry x) = some (g x)) →
      (xs.map entry).mapM f = some (xs.map g)
  | [], _ => rfl
  | x :: xs, h => by
    rw [List.map_cons, List.mapM_cons, h x (by simp),
      mapM_map_eq_some fun y hy => h y (.tail x hy)]
    rfl

/-- The entry of an attribute. -/
def attributeEntry : Text × Attribute → Text × Value
  | (name, .scalar type) => (name, .text type)
  | (name, .toOne target) => (name, .table .header [("to_one".toList, .text target)])
  | (name, .toMany target) => (name, .table .header [("to_many".toList, .text target)])

theorem fst_attributeEntry (e : Text × Attribute) : (attributeEntry e).1 = e.1 := by
  obtain ⟨name, type | target | target⟩ := e <;> rfl

theorem attribute?_attributeEntry (e : Text × Attribute) :
    attribute? (attributeEntry e).2 = some e.2 := by
  obtain ⟨name, type | target | target⟩ := e <;> rfl

/-- The entries of a record type's table. -/
def typeEntries (type : RecordType) : Entries :=
  type.parent.toList.map (fun p => (parentKey, .text p)) ++
    (arrange type.attributes.entries).map attributeEntry

theorem ofFields_scalarFields : ∀ es : List (Text × Attribute),
    Entries.ofFields (es.filterMap scalarField?) =
      (es.filter (!·.2.isRelation)).map attributeEntry
  | [] => rfl
  | (name, .scalar type) :: es => congrArg ((name, Value.text type) :: ·) (ofFields_scalarFields es)
  | (_, .toOne _) :: es | (_, .toMany _) :: es => ofFields_scalarFields es

theorem map_relationBlocks : ∀ es : List (Text × Attribute),
    (es.filterMap (relationBlock? [])).map Block.entry =
      (es.filter (·.2.isRelation)).map attributeEntry
  | [] => rfl
  | (_, .scalar _) :: es => map_relationBlocks es
  | (name, .toOne target) :: es =>
    congrArg (attributeEntry (name, .toOne target) :: ·) (map_relationBlocks es)
  | (name, .toMany target) :: es =>
    congrArg (attributeEntry (name, .toMany target) :: ·) (map_relationBlocks es)

theorem typeEntries_eq (type : RecordType) :
    Entries.ofFields (typeFields type) ++ (relationBlocks type).map Block.entry =
      typeEntries type := by
  rw [typeFields, relationBlocks, Entries.ofFields, List.map_append, ← Entries.ofFields,
    ← Entries.ofFields, ofFields_scalarFields, map_relationBlocks, typeEntries, arrange,
    List.map_append, Entries.ofFields, List.map_map, List.append_assoc]
  rfl

theorem notMem_arrange {type : RecordType} (h : type.attributes.get? parentKey = none) :
    ∀ e ∈ arrange type.attributes.entries, e.1 ≠ parentKey := by
  intro e he heq
  have hmem := (arrange_perm type.attributes.entries).mem_iff.mp he
  exact OrderedMap.notMem_of_get?_eq_none h (List.mem_map.mpr ⟨e, hmem, heq⟩)

theorem map_fst_attributeEntry (es : List (Text × Attribute)) :
    (es.map attributeEntry).map Prod.fst = es.map Prod.fst := by
  rw [List.map_map]
  exact List.map_congr_left fun e _ => fst_attributeEntry e

theorem nodup_typeEntries {type : RecordType} (h : type.attributes.get? parentKey = none) :
    ((typeEntries type).map Prod.fst).Nodup := by
  have hattributes : ((arrange type.attributes.entries).map Prod.fst).Nodup :=
    ((arrange_perm _).map Prod.fst).nodup_iff.mpr type.attributes.nodup
  rw [typeEntries, List.map_append, map_fst_attributeEntry, List.nodup_append]
  refine ⟨?_, hattributes, ?_⟩
  · cases type.parent <;> simp
  · intro key hkey name hname heq
    obtain ⟨e, he, rfl⟩ := List.mem_map.mp hname
    obtain ⟨f, hf, rfl⟩ := List.mem_map.mp hkey
    obtain ⟨parent, -, rfl⟩ := List.mem_map.mp hf
    exact notMem_arrange h e he heq.symm

theorem mapM_attribute? (es : List (Text × Attribute)) :
    (es.map attributeEntry).mapM (fun e => (attribute? e.2).map (e.1, ·)) = some es := by
  rw [mapM_map_eq_some (g := id), List.map_id]
  intro e _
  rw [attribute?_attributeEntry, fst_attributeEntry]
  rfl

theorem recordType?_typeEntries {type : RecordType} (h : type.attributes.get? parentKey = none)
    (origin : Toml.Origin) :
    recordType? (.table origin (typeEntries type)) = some type.arranged := by
  have hkeys : ∀ e ∈ (arrange type.attributes.entries).map attributeEntry, e.1 ≠ parentKey := by
    intro e he
    obtain ⟨a, ha, rfl⟩ := List.mem_map.mp he
    rw [fst_attributeEntry]
    exact notMem_arrange h a ha
  have hnone : ((arrange type.attributes.entries).map attributeEntry).lookup parentKey = none := by
    rw [List.lookup_eq_none_iff]
    intro e he
    simpa using (hkeys e he).symm
  have hlookup : ((typeEntries type).lookup parentKey).mapM text? = some type.parent := by
    rw [typeEntries]
    cases type.parent with
    | none => simp [hnone]
    | some parent => simp [text?]
  have hfilter : (typeEntries type).filter (·.1 ≠ parentKey) =
      (arrange type.attributes.entries).map attributeEntry := by
    rw [typeEntries, List.filter_append, List.filter_eq_nil_iff.mpr, List.nil_append,
      List.filter_eq_self.mpr]
    · simpa using hkeys
    · cases type.parent <;> simp
  simp only [recordType?, entries?, hlookup, hfilter, mapM_attribute?]
  rfl

/-- The table of a record type; a type that has only relations has no header. -/
def typeEntry (e : Text × RecordType) : Text × Value :=
  (e.1, .table (if relationsOnly e.2 then .implied else .header) (typeEntries e.2))

theorem relationBlocks_spec {type : RecordType} {b : Block} (h : b ∈ relationBlocks type) :
    b.header.length = 1 ∧ (b.fields.map Prod.fst).Nodup := by
  obtain ⟨⟨name, _ | target | target⟩, -, hb⟩ := List.mem_filterMap.mp h
  · cases hb
  · cases hb
    simp
  · cases hb
    simp

theorem foldlM_relationBlocks {type : RecordType} {es : Entries}
    (h : ((es ++ (relationBlocks type).map Block.entry).map Prod.fst).Nodup) :
    (relationBlocks type).foldlM Entries.addBlock es =
      some (es ++ (relationBlocks type).map Block.entry) := by
  refine Entries.foldlM_concat (fun b hb es hnew => ?_) h
  obtain ⟨hheader, hfields⟩ := relationBlocks_spec hb
  exact Entries.addBlock_eq hheader hfields hnew

theorem foldlM_typeBlocks {e : Text × RecordType} {es : Entries} (hnew : es.lookup e.1 = none)
    (h : e.2.attributes.get? parentKey = none) :
    (typeBlocks e).foldlM Entries.addBlock es = some (es ++ [typeEntry e]) := by
  have hheaders : ∀ b ∈ relationBlocks e.2, b.header ≠ [] := by
    intro b hb
    rw [← List.length_pos_iff, (relationBlocks_spec hb).1]
    decide
  have hnodup := nodup_typeEntries h
  rw [← typeEntries_eq] at hnodup
  have hrelations := foldlM_relationBlocks hnodup
  rw [typeEntries_eq] at hrelations
  unfold typeBlocks typeEntry
  split_ifs with hown
  -- Without its own table the first relation makes the table of the type; else it finds it open.
  · simp only [relationsOnly, Bool.and_eq_true, List.isEmpty_iff, Bool.not_eq_true',
      List.isEmpty_eq_false_iff] at hown
    rw [hown.1] at hrelations
    rw [List.nil_append, Entries.foldlM_under_fresh hnew hown.2 hheaders]
    exact congrArg (Option.map _) hrelations
  · have hfields : ((typeFields e.2).map Prod.fst).Nodup := by
      rw [List.map_append, List.nodup_append, Entries.map_fst_ofFields] at hnodup
      exact hnodup.1
    have hopen : es.addBlock ⟨[e.1], typeFields e.2⟩ =
        some (es ++ [(e.1, .table .header (Entries.ofFields (typeFields e.2)))]) :=
      Entries.addBlock_eq rfl hfields hnew
    have hheader : Toml.Origin.header ≠ .inline := by decide
    have hunder := Entries.foldlM_under hnew hheader hheaders (Entries.ofFields (typeFields e.2))
    rw [hrelations] at hunder
    rw [List.foldlM_append, List.foldlM_cons, hopen]
    exact hunder

/-! ## Round trip -/

def guesserBlock (g : GuessSettings) : Block :=
  block "guesser" (g.root.toList.map (fun r => ("root_type", .text r)) ++
    [("qualified_attributes", .boolean g.qualified), ("excluded", .texts g.excluded)])

def loggingBlock (l : LogSettings) : Block :=
  block "logging" [("level", .text l.level.label.toList), ("timestamps", .boolean l.timestamps)]

def displayBlock (f : ReportFormat) : Block := block "display" [("format", .text f.label.toList)]

/-- The tables before the schema. -/
def sectionBlocks (s : Settings) : List Block :=
  [guesserBlock s.guesser, loggingBlock s.logging, displayBlock s.format]

theorem foldlM_sectionBlocks (s : Settings) :
    s.sectionBlocks.foldlM Entries.addBlock [] = some (s.sectionBlocks.map Block.entry) := by
  have hkeys : (s.sectionBlocks.map Block.entry).map Prod.fst =
      ["guesser".toList, "logging".toList, "display".toList] := rfl
  refine Entries.foldlM_concat ?_ ?_
  · intro b hb es hnew
    simp only [sectionBlocks, List.mem_cons, List.not_mem_nil, or_false] at hb
    rcases hb with rfl | rfl | rfl
    · refine Entries.addBlock_eq rfl ?_ hnew
      cases h : s.guesser.root <;> simp [guesserBlock, block, h]
    · exact Entries.addBlock_eq rfl (by simp [loggingBlock, block]) hnew
    · exact Entries.addBlock_eq rfl (by simp [displayBlock, block]) hnew
  · rw [List.nil_append, hkeys]
    decide

theorem foldlM_types (s : Settings)
    (h : ∀ e ∈ s.schema.entries, e.2.attributes.get? parentKey = none) :
    (s.schema.entries.flatMap typeBlocks).foldlM Entries.addBlock [] =
      some (s.schema.entries.map typeEntry) := by
  rw [Entries.foldlM_flatMap]
  refine Entries.foldlM_concat ?_ ?_
  · intro e he es hnew
    exact foldlM_typeBlocks hnew (h e he)
  · have hkeys : (s.schema.entries.map typeEntry).map Prod.fst = s.schema.entries.map Prod.fst := by
      rw [List.map_map]
      rfl
    rw [List.nil_append, hkeys]
    exact s.schema.nodup

/-- The root table of the document that settings are written as. -/
def rootEntries (s : Settings) : Entries :=
  s.sectionBlocks.map Block.entry ++
    [("schema".toList, .table (if s.schema.isEmpty then .header else .implied)
      (s.schema.entries.map typeEntry))]

theorem foldlM_blocks (s : Settings)
    (h : ∀ e ∈ s.schema.entries, e.2.attributes.get? parentKey = none) :
    s.blocks.foldlM Entries.addBlock [] = some s.rootEntries := by
  have hnew : (s.sectionBlocks.map Block.entry).lookup "schema".toList = none := rfl
  have hsplit : s.blocks = s.sectionBlocks ++ if s.schema.isEmpty then [block "schema" []]
    else s.schema.entries.flatMap fun e => recordBlocks e.1 e.2 := rfl
  rw [hsplit, List.foldlM_append, foldlM_sectionBlocks]
  simp only [Option.bind_eq_bind, Option.bind_some]
  unfold rootEntries
  split_ifs with hempty
  · have hnil : s.schema.entries = [] := List.isEmpty_iff.mp hempty
    have hblock : Entries.addBlock (s.sectionBlocks.map Block.entry) (block "schema" []) =
        some (s.sectionBlocks.map Block.entry ++ [(block "schema" []).entry]) :=
      Entries.addBlock_eq rfl List.nodup_nil hnew
    rw [List.foldlM_cons, hblock, hnil]
    rfl
  · have hblocks : (s.schema.entries.flatMap fun e => recordBlocks e.1 e.2) =
        (s.schema.entries.flatMap typeBlocks).map (Block.under "schema".toList) := by
      rw [List.map_flatMap]
      simp only [recordBlocks_eq]
    have htypes := foldlM_types s h
    -- Every type adds an entry, so there is a block that makes the table of the schema.
    have hne : s.schema.entries.flatMap typeBlocks ≠ [] := by
      intro hnil
      rw [hnil] at htypes
      have hentries : s.schema.entries = [] := by simpa using htypes
      exact hempty (List.isEmpty_iff.mpr hentries)
    have hheaders : ∀ b ∈ s.schema.entries.flatMap typeBlocks, b.header ≠ [] := by
      intro b hb
      obtain ⟨e, -, he⟩ := List.mem_flatMap.mp hb
      exact header_ne_nil_of_mem_typeBlocks he
    rw [hblocks, Entries.foldlM_under_fresh hnew hne hheaders, htypes]
    rfl

theorem texts?_array (items : List Text) : texts? (.array (items.map .text)) = some items := by
  have h : (items.map Value.text).mapM text? = some (items.map id) :=
    mapM_map_eq_some fun t _ => rfl
  rwa [List.map_id] at h

theorem choice?_label (level : LogLevel) :
    choice? LogLevel.all LogLevel.label (.text level.label.toList) = some level := by
  cases level <;> decide

theorem fieldOr_block {α : Type} (header key : String) (default : α) (read? : Value → Option α) :
    ∀ fields : List (String × Field),
      fieldOr (Entries.ofFields (block header fields).fields) key default read? =
        match fields.lookup key with
        | none => some default
        | some f => read? f.value
  | [] => rfl
  | (name, f) :: fields => by
    have ih := fieldOr_block header key default read? fields
    by_cases h : key = name
    · simp [fieldOr, block, Entries.ofFields, h]
    · have hkey : (key == name) = false := by simpa using h
      have hname : (key.toList == name.toList) = false := by simpa [String.toList_inj] using h
      simpa [fieldOr, block, Entries.ofFields, List.lookup_cons, hkey, hname] using ih

theorem guesser?_entry (g : GuessSettings) (origin : Toml.Origin) :
    guesser? (.table origin (Entries.ofFields (guesserBlock g).fields)) = some g := by
  have hexcluded := texts?_array g.excluded
  refine Option.bind_eq_some_iff.mpr ⟨g.root, ?_, ?_⟩
  · rw [guesserBlock, fieldOr_block]
    cases g.root <;> rfl
  refine Option.bind_eq_some_iff.mpr ⟨g.qualified, ?_, ?_⟩
  · rw [guesserBlock, fieldOr_block]
    cases g.root <;> rfl
  refine Option.bind_eq_some_iff.mpr ⟨g.excluded, ?_, rfl⟩
  rw [guesserBlock, fieldOr_block]
  cases g.root <;> exact hexcluded

theorem logging?_entry (l : LogSettings) (origin : Toml.Origin) :
    logging? (.table origin (Entries.ofFields (loggingBlock l).fields)) = some l := by
  refine Option.bind_eq_some_iff.mpr ⟨l.level, ?_, ?_⟩
  · rw [loggingBlock, fieldOr_block]
    exact choice?_label l.level
  · refine Option.bind_eq_some_iff.mpr ⟨l.timestamps, ?_, rfl⟩
    rw [loggingBlock, fieldOr_block]
    rfl

theorem display?_entry (f : ReportFormat) (origin : Toml.Origin) :
    display? (.table origin (Entries.ofFields (displayBlock f).fields)) = some f := by
  cases f <;> rfl

theorem schema?_entry (d : Definitions)
    (h : ∀ e ∈ d.entries, e.2.attributes.get? parentKey = none) (origin : Toml.Origin) :
    schema? (.table origin (d.entries.map typeEntry)) = some (d.mapValues RecordType.arranged) := by
  have htypes : (d.entries.map typeEntry).mapM (fun e => (recordType? e.2).map (e.1, ·)) =
      some (d.mapValues RecordType.arranged).entries := by
    refine mapM_map_eq_some fun e he => ?_
    rw [typeEntry, recordType?_typeEntries (h e he)]
    rfl
  refine Option.bind_eq_some_iff.mpr ⟨_, htypes, ?_⟩
  rw [OrderedMap.ofList_entries]

theorem ofEntries?_rootEntries (s : Settings)
    (h : ∀ e ∈ s.schema.entries, e.2.attributes.get? parentKey = none) :
    ofEntries? s.rootEntries =
      some { s with schema := s.schema.mapValues RecordType.arranged } := by
  refine Option.bind_eq_some_iff.mpr ⟨s.guesser, guesser?_entry s.guesser _, ?_⟩
  refine Option.bind_eq_some_iff.mpr ⟨s.logging, logging?_entry s.logging _, ?_⟩
  refine Option.bind_eq_some_iff.mpr ⟨s.format, display?_entry s.format _, ?_⟩
  exact Option.bind_eq_some_iff.mpr ⟨_, schema?_entry s.schema h _, rfl⟩

theorem header_ne_nil_of_mem_blocks {s : Settings} {b : Block} (h : b ∈ s.blocks) :
    b.header ≠ [] := by
  rcases List.mem_append.mp h with h | h
  · simp only [List.mem_cons, List.not_mem_nil, or_false] at h
    rcases h with rfl | rfl | rfl <;> simp [block]
  · split_ifs at h
    · cases List.mem_singleton.mp h
      simp [block]
    · obtain ⟨e, -, he⟩ := List.mem_flatMap.mp h
      rw [recordBlocks_eq] at he
      obtain ⟨c, -, rfl⟩ := List.mem_map.mp he
      simp [Block.under]

theorem ofToml_toToml (s : Settings)
    (h : ∀ e ∈ s.schema.entries, e.2.attributes.get? parentKey = none) :
    ofToml s.toToml = .ok { s with schema := s.schema.mapValues RecordType.arranged } := by
  have hparse : Toml.parse s.toToml = some s.rootEntries := by
    rw [toToml, Toml.parse_writeBlocks_eq fun b => header_ne_nil_of_mem_blocks, foldlM_blocks s h]
  rw [ofToml, ofToml?, hparse, Option.bind_some, ofEntries?_rootEntries s h]

/-- Settings are read back from the document they are written as: the same sections, and the same
record types with the same parents and attributes. No attribute may be called `_extends`, the key
that the parent is written under. -/
theorem toml_round_trip (s : Settings)
    (h : ∀ name type, s.schema.get? name = some type → type.attributes.get? parentKey = none) :
    ∃ s', ofToml s.toToml = .ok s' ∧ s'.guesser = s.guesser ∧ s'.logging = s.logging ∧
      s'.format = s.format ∧
      ∀ name, Option.Rel RecordType.Same (s'.schema.get? name) (s.schema.get? name) := by
  have hentries : ∀ e ∈ s.schema.entries, e.2.attributes.get? parentKey = none :=
    fun e he => h e.1 e.2 (OrderedMap.get?_eq_some_of_mem he)
  refine ⟨_, ofToml_toToml s hentries, rfl, rfl, rfl, fun name => ?_⟩
  rw [OrderedMap.get?_mapValues]
  cases s.schema.get? name with
  | none => exact .none
  | some type => exact .some ⟨rfl, type.get?_arranged⟩

/-- Settings whose names need every form of quotes, with a type that has relations only, one that
has nothing, and a relation before another attribute. -/
def quotedSettings : Settings where
  guesser := ⟨some "\"A\" 'b'".toList, true, ["'''\n\"\"\"".toList, [], "\\".toList]⟩
  logging := ⟨.trace, false⟩
  format := .json
  schema := .ofList
    [("a.b".toList, ⟨some "\t".toList, .ofList
      [("to_one".toList, .toMany "]\n".toList), ("# c".toList, .scalar "=\"".toList)]⟩),
      ([], ⟨none, .ofList [("schema".toList, .toOne [])]⟩), ("\x7f".toList, ⟨none, .empty⟩)]

theorem toml_round_trip_quoted :
    ∃ s', ofToml quotedSettings.toToml = .ok s' ∧ s'.guesser = quotedSettings.guesser ∧
      s'.logging = quotedSettings.logging ∧ s'.format = quotedSettings.format ∧
      ∀ name, Option.Rel RecordType.Same (s'.schema.get? name)
        (quotedSettings.schema.get? name) := by
  refine toml_round_trip quotedSettings fun name type htype => ?_
  have hall : ∀ e ∈ quotedSettings.schema.entries, e.2.attributes.get? parentKey = none := by decide
  exact hall _ (OrderedMap.mem_entries_of_get? htype)

end Settings

end Typeahead
