import Typeahead.Proofs.Lines

/-!
# Tables put together in the order they are written

A document writes a table before the tables inside it and finishes with one table before it starts
the next, so that every line adds at the end of what there is. `parse_writeBlocks_eq` reads a
written document table by table, by `Entries.addBlock`. Tables that all lie inside one table add to
that table what they would add on their own: `Entries.foldlM_under` if it has been opened and
`Entries.foldlM_under_fresh` if it has not. Under new keys, tables are added one after another
(`Entries.foldlM_concat`, `Entries.addBlock_eq`).
-/

namespace Typeahead.Toml

namespace Entries

variable {es sub : Entries} {key : Text} {origin : Origin}

theorem lookup_concat (h : es.lookup key = none) (v : Value) :
    (es ++ [(key, v)]).lookup key = some v := by
  rw [List.lookup_append, h]
  simp

theorem putEntry_concat {v w : Value} : ∀ {es : Entries}, es.lookup key = none →
    putEntry key w (es ++ [(key, v)]) = es ++ [(key, w)]
  | [], _ => by simp [putEntry]
  | (k, x) :: es, h => by
    rw [List.lookup_cons] at h
    split at h
    · cases h
    · next hne =>
      have hne : k ≠ key := by
        rintro rfl
        simp at hne
      rw [List.cons_append, putEntry, if_neg hne, putEntry_concat h, List.cons_append]

theorem within_concat (h : es.lookup key = none) (ho : origin ≠ .inline)
    (change : Entries → Option Entries) :
    within key change (es ++ [(key, .table origin sub)]) =
      (change sub).map fun sub' => es ++ [(key, .table origin sub')] := by
  rw [within, lookup_concat h]
  cases origin with
  | inline => exact absurd rfl ho
  | dotted | implied | header => simp only [putEntry_concat h]

theorem foldlM_within {α : Type} (h : es.lookup key = none) (ho : origin ≠ .inline)
    (change : Entries → α → Option Entries) : ∀ (xs : List α) (sub : Entries),
    xs.foldlM (fun es x => within key (change · x) es) (es ++ [(key, .table origin sub)]) =
      (xs.foldlM change sub).map fun sub' => es ++ [(key, .table origin sub')]
  | [], sub => rfl
  | x :: xs, sub => by
    rw [List.foldlM_cons, List.foldlM_cons, within_concat h ho]
    rcases change sub x with _ | sub'
    · rfl
    · exact foldlM_within h ho change xs sub'

end Entries

/-- The entries with a field bound in the table under `path`. -/
def Entries.addField (path : KeyPath) (es : Entries) (f : Text × Field) : Option Entries :=
  es.inside path (assign f.2.value [f.1])

/-- The entries with a table opened and its fields bound. -/
def Entries.addBlock (es : Entries) (b : Block) : Option Entries :=
  (es.openTable b.header).bind fun es => b.fields.foldlM (addField b.header) es

theorem Document.foldlM_fields (path : KeyPath) : ∀ (fields : List (Text × Field))
    (root : Entries),
    (fields.map fun f => Statement.assignment [f.1] f.2.value).foldlM Document.add ⟨root, path⟩ =
      (fields.foldlM (Entries.addField path) root).map (⟨·, path⟩)
  | [], root => rfl
  | f :: fields, root => by
    rw [List.map_cons, List.foldlM_cons, List.foldlM_cons, Document.add, Entries.addField]
    rcases root.inside path (Entries.assign f.2.value [f.1]) with _ | root'
    · rfl
    · exact foldlM_fields path fields root'

theorem Document.foldlM_blocks : ∀ (blocks : List Block) (d : Document),
    ((blocks.flatMap Block.statements).foldlM Document.add d).map Document.root =
      blocks.foldlM Entries.addBlock d.root
  | [], d => rfl
  | b :: blocks, d => by
    rw [List.flatMap_cons, List.foldlM_append, Block.statements, List.foldlM_cons,
      List.foldlM_cons, Document.add, Entries.addBlock]
    rcases d.root.openTable b.header with _ | root
    · rfl
    · simp only [Option.map_some, Option.bind_eq_bind, Option.bind_some, foldlM_fields]
      rcases b.fields.foldlM (Entries.addField b.header) root with _ | root'
      · rfl
      · exact foldlM_blocks blocks ⟨root', b.header⟩

theorem parse_writeBlocks_eq {blocks : List Block} (h : ∀ b ∈ blocks, b.header ≠ []) :
    parse (writeBlocks blocks) = blocks.foldlM Entries.addBlock [] :=
  (parse_writeBlocks h).trans (Document.foldlM_blocks blocks {})

/-- A table inside the one under `key`. -/
def Block.under (key : Text) (b : Block) : Block := ⟨key :: b.header, b.fields⟩

namespace Entries

variable {es sub : Entries} {key : Text} {origin : Origin}

theorem addBlock_under (h : es.lookup key = none) (ho : origin ≠ .inline) {b : Block}
    (hb : b.header ≠ []) : addBlock (es ++ [(key, .table origin sub)]) (b.under key) =
      (addBlock sub b).map fun sub' => es ++ [(key, .table origin sub')] := by
  obtain ⟨next, path, hpath⟩ := List.exists_cons_of_ne_nil hb
  have hopen : openTable (key :: b.header) (es ++ [(key, .table origin sub)]) =
      (openTable b.header sub).map fun sub' => es ++ [(key, .table origin sub')] := by
    rw [hpath]
    exact within_concat h ho _
  rw [addBlock, addBlock, Block.under, hopen]
  rcases openTable b.header sub with _ | sub'
  · rfl
  · exact foldlM_within h ho (addField b.header) b.fields sub'

theorem foldlM_under (h : es.lookup key = none) (ho : origin ≠ .inline) :
    ∀ {blocks : List Block}, (∀ b ∈ blocks, b.header ≠ []) → ∀ sub,
    (blocks.map (Block.under key)).foldlM addBlock (es ++ [(key, .table origin sub)]) =
      (blocks.foldlM addBlock sub).map fun sub' => es ++ [(key, .table origin sub')]
  | [], _, sub => rfl
  | b :: blocks, hb, sub => by
    rw [List.map_cons, List.foldlM_cons, List.foldlM_cons, addBlock_under h ho (hb b (by simp))]
    rcases addBlock sub b with _ | sub'
    · rfl
    · exact foldlM_under h ho (fun c hc => hb c (.tail b hc)) sub'

theorem addBlock_under_fresh (h : es.lookup key = none) {b : Block} (hb : b.header ≠ []) :
    addBlock es (b.under key) = addBlock (es ++ [(key, .table .implied [])]) (b.under key) := by
  obtain ⟨next, path, hpath⟩ := List.exists_cons_of_ne_nil hb
  have hopen : openTable (key :: b.header) es =
      openTable (key :: b.header) (es ++ [(key, .table .implied [])]) := by
    rw [hpath, openTable, openTable, within_concat h (by decide), within, h]
    all_goals simp
  rw [addBlock, addBlock, Block.under, hopen]

theorem foldlM_under_fresh (h : es.lookup key = none) {blocks : List Block}
    (hne : blocks ≠ []) (hb : ∀ b ∈ blocks, b.header ≠ []) :
    (blocks.map (Block.under key)).foldlM addBlock es =
      (blocks.foldlM addBlock []).map fun sub => es ++ [(key, .table .implied sub)] := by
  -- After the first block the table is there, and so it might have been there from the start.
  rw [← foldlM_under h (by decide) hb]
  obtain ⟨b, blocks, rfl⟩ := List.exists_cons_of_ne_nil hne
  rw [List.map_cons, List.foldlM_cons, List.foldlM_cons,
    addBlock_under_fresh h (hb b (by simp))]

/-- Steps that each add one entry under a new key add them all. -/
theorem foldlM_concat {α : Type} {step : Entries → α → Option Entries} {entry : α → Text × Value} :
    ∀ {xs : List α}, (∀ x ∈ xs, ∀ es : Entries, es.lookup (entry x).1 = none →
      step es x = some (es ++ [entry x])) → ∀ {es : Entries},
      ((es ++ xs.map entry).map Prod.fst).Nodup → xs.foldlM step es = some (es ++ xs.map entry)
  | [], _, es, _ => by simp
  | x :: xs, hstep, es, hes => by
    have hnew : es.lookup (entry x).1 = none := by
      rw [List.map_append, List.nodup_append] at hes
      rw [List.lookup_eq_none_iff]
      intro e he
      have hne := hes.2.2 e.1 (List.mem_map_of_mem he) (entry x).1 (by simp)
      simpa using hne.symm
    rw [List.foldlM_cons, hstep x (by simp) es hnew]
    have ih : xs.foldlM step (es ++ [entry x]) = some (es ++ [entry x] ++ xs.map entry) :=
      foldlM_concat (fun y hy => hstep y (.tail x hy)) (by simpa using hes)
    simpa using ih

theorem foldlM_flatMap {α β : Type} {f : α → List β} {step : Entries → β → Option Entries} :
    ∀ {xs : List α} {es : Entries}, (xs.flatMap f).foldlM step es =
      xs.foldlM (fun es x => (f x).foldlM step es) es
  | [], es => rfl
  | x :: xs, es => by
    rw [List.flatMap_cons, List.foldlM_append, List.foldlM_cons]
    congr 1
    funext es'
    exact foldlM_flatMap

end Entries

/-- What the fields of a table are read as. -/
def Entries.ofFields (fields : List (Text × Field)) : Entries :=
  fields.map fun f => (f.1, f.2.value)

/-- What a table with a header of one name is read as. -/
def Block.entry (b : Block) : Text × Value :=
  (b.header.headD [], .table .header (Entries.ofFields b.fields))

namespace Entries

@[simp] theorem map_fst_ofFields (fields : List (Text × Field)) :
    (ofFields fields).map Prod.fst = fields.map Prod.fst := by
  simp [ofFields]

theorem foldlM_addField {fields : List (Text × Field)} (h : (fields.map Prod.fst).Nodup) :
    fields.foldlM (addField []) [] = some (ofFields fields) := by
  refine foldlM_concat ?_ ?_
  · intro f _ es hf
    simp [addField, inside, assign, hf]
  · rw [List.nil_append, ← ofFields, map_fst_ofFields]
    exact h

theorem addBlock_eq {es : Entries} {b : Block} (hb : b.header.length = 1)
    (hfields : (b.fields.map Prod.fst).Nodup) (h : es.lookup b.entry.1 = none) :
    es.addBlock b = some (es ++ [b.entry]) := by
  obtain ⟨header, fields⟩ := b
  obtain ⟨key, rfl⟩ := List.length_eq_one_iff.mp hb
  have hkey : es.lookup key = none := h
  have hopen : openTable [key] es = some (es ++ [(key, .table .header [])]) := by
    rw [openTable, hkey]
  have hheader : Origin.header ≠ .inline := by decide
  have hfold := foldlM_within hkey hheader (addField []) fields []
  rw [foldlM_addField hfields] at hfold
  rw [addBlock, hopen]
  exact hfold

end Entries

end Typeahead.Toml
