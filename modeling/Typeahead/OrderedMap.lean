/-!
# Maps that remember when a key first came

An `OrderedMap` lists its entries in the order in which their keys were first inserted: a new value
for a known key keeps the key's place (`keys_insert`). Keys never repeat, which is part of the type,
so a look-up finds every entry (`get?_eq_some_of_mem`). One map inserted in another overrides it:
its values go first (`get?_insertAll`), and its new keys come last (`keys_insertAll`).
-/

namespace Typeahead

variable {α β : Type}

section Entries

variable [DecidableEq α]

/-- The entries with `a` bound to `b`: in place if `a` has an entry, else at the end. -/
def putEntry (a : α) (b : β) : List (α × β) → List (α × β)
  | [] => [(a, b)]
  | (k, v) :: rest => if k = a then (a, b) :: rest else (k, v) :: putEntry a b rest

theorem map_fst_putEntry (a : α) (b : β) (es : List (α × β)) :
    (putEntry a b es).map Prod.fst =
      if a ∈ es.map Prod.fst then es.map Prod.fst else es.map Prod.fst ++ [a] := by
  induction es with
  | nil => simp [putEntry]
  | cons e rest ih =>
    obtain ⟨k, v⟩ := e
    unfold putEntry
    by_cases h : k = a
    · simp [h]
    · have h' : ¬ a = k := fun e => h e.symm
      simp only [h, h', ↓reduceIte, List.map_cons, ih, List.mem_cons, false_or]
      split <;> simp

theorem nodup_putEntry {a : α} {b : β} {es : List (α × β)} (h : (es.map Prod.fst).Nodup) :
    ((putEntry a b es).map Prod.fst).Nodup := by
  rw [map_fst_putEntry]
  split
  · exact h
  · next hm =>
    rw [List.nodup_append]
    refine ⟨h, by simp, ?_⟩
    intro x hx y hy hxy
    rw [List.mem_singleton] at hy
    exact hm (hy ▸ hxy ▸ hx)

theorem putEntry_of_notMem {a : α} {b : β} : ∀ {es : List (α × β)}, a ∉ es.map Prod.fst →
    putEntry a b es = es ++ [(a, b)]
  | [], _ => rfl
  | (k, v) :: es, h => by
    rw [List.map_cons, List.mem_cons, not_or] at h
    rw [putEntry, if_neg (Ne.symm h.1), putEntry_of_notMem h.2, List.cons_append]

end Entries

/-- A finite map whose entries stand in the order in which their keys were first inserted. -/
structure OrderedMap (α β : Type) where
  entries : List (α × β)
  nodup : (entries.map Prod.fst).Nodup

namespace OrderedMap

/-- The map without entries. -/
def empty : OrderedMap α β := ⟨[], List.nodup_nil⟩

/-- The keys in order. -/
def keys (m : OrderedMap α β) : List α := m.entries.map Prod.fst

/-- The number of entries. -/
def size (m : OrderedMap α β) : Nat := m.entries.length

/-- Whether there is no entry. -/
def isEmpty (m : OrderedMap α β) : Bool := m.entries.isEmpty

/-- Every value replaced by its image; keys and order stay. -/
def mapValues {γ : Type} (f : β → γ) (m : OrderedMap α β) : OrderedMap α γ :=
  ⟨m.entries.map fun e => (e.1, f e.2), by
    have h : ((m.entries.map fun e => (e.1, f e.2)).map Prod.fst) = m.entries.map Prod.fst := by
      simp
    rw [h]
    exact m.nodup⟩

variable [DecidableEq α]

/-- The value of a key. -/
def get? (m : OrderedMap α β) (a : α) : Option β := m.entries.lookup a

/-- Whether the key has an entry. -/
def contains (m : OrderedMap α β) (a : α) : Bool := (m.get? a).isSome

/-- The map with `a` bound to `b`; a known key keeps its place. -/
def insert (m : OrderedMap α β) (a : α) (b : β) : OrderedMap α β :=
  ⟨putEntry a b m.entries, nodup_putEntry m.nodup⟩

/-- The map with every entry inserted in turn. -/
def insertAll (m : OrderedMap α β) (es : List (α × β)) : OrderedMap α β :=
  es.foldl (fun m e => m.insert e.1 e.2) m

/-- A repeated key keeps its first place and takes its last value. -/
def ofList (es : List (α × β)) : OrderedMap α β := empty.insertAll es

/-- The map without the entry of `a`. -/
def erase (m : OrderedMap α β) (a : α) : OrderedMap α β :=
  ⟨m.entries.filter (·.1 ≠ a), (List.filter_sublist.map Prod.fst).nodup m.nodup⟩

/-- Both maps give every key the same value; order is ignored. -/
def sameEntries [DecidableEq β] (m n : OrderedMap α β) : Bool :=
  m.entries.all (fun e => n.get? e.1 = some e.2) && n.entries.all fun e => m.get? e.1 = some e.2

theorem keys_insert (m : OrderedMap α β) (a : α) (b : β) :
    (m.insert a b).keys = if a ∈ m.keys then m.keys else m.keys ++ [a] :=
  map_fst_putEntry a b m.entries

@[simp] theorem get?_empty (a : α) : (empty : OrderedMap α β).get? a = none := rfl

theorem get?_insert (m : OrderedMap α β) (a x : α) (b : β) :
    (m.insert a b).get? x = if x = a then some b else m.get? x := by
  obtain ⟨es, h⟩ := m
  simp only [insert, get?]
  clear h
  induction es with
  | nil =>
    by_cases hx : x = a
    · simp [putEntry, hx]
    · simp [putEntry, hx]
  | cons e rest ih =>
    obtain ⟨k, v⟩ := e
    unfold putEntry
    by_cases hk : k = a
    · by_cases hx : x = a
      · simp [hk, hx]
      · have hx' : (x == a) = false := by simpa using hx
        simp [List.lookup_cons, hk, hx, hx']
    · by_cases hx : x = k
      · simp [hk, hx]
      · have hx' : (x == k) = false := by simpa using hx
        simp [List.lookup_cons, hk, hx', ih]

@[simp] theorem entries_erase (m : OrderedMap α β) (a : α) :
    (m.erase a).entries = m.entries.filter (·.1 ≠ a) := rfl

theorem mem_entries_of_get? {m : OrderedMap α β} {a : α} {b : β} (h : m.get? a = some b) :
    (a, b) ∈ m.entries := by
  obtain ⟨es, hes⟩ := m
  simp only [get?] at h ⊢
  clear hes
  induction es with
  | nil => simp at h
  | cons e rest ih =>
    obtain ⟨k, v⟩ := e
    by_cases hk : a = k
    · simp only [hk, List.lookup_cons, beq_self_eq_true, Option.some.injEq] at h
      simp [hk, h]
    · have hk' : (a == k) = false := by simpa using hk
      simp only [List.lookup_cons, hk'] at h
      exact List.mem_cons_of_mem _ (ih h)

theorem get?_eq_some_of_mem {m : OrderedMap α β} {a : α} {b : β} (h : (a, b) ∈ m.entries) :
    m.get? a = some b := by
  obtain ⟨es, hes⟩ := m
  simp only [get?] at h ⊢
  induction es with
  | nil => simp at h
  | cons e es ih =>
    obtain ⟨k, v⟩ := e
    rw [List.map_cons, List.nodup_cons] at hes
    rcases List.mem_cons.mp h with heq | hmem
    · cases heq
      simp
    · have hne : (a == k) = false := by
        rw [beq_eq_false_iff_ne]
        rintro rfl
        exact hes.1 (List.mem_map.mpr ⟨_, hmem, rfl⟩)
      rw [List.lookup_cons, hne]
      exact ih hes.2 hmem

theorem notMem_of_get?_eq_none {m : OrderedMap α β} {a : α} (h : m.get? a = none) :
    a ∉ m.entries.map Prod.fst := by
  intro hmem
  obtain ⟨e, he, rfl⟩ := List.mem_map.mp hmem
  rw [get?_eq_some_of_mem he] at h
  cases h

theorem contains_iff {m : OrderedMap α β} {a : α} :
    m.contains a = true ↔ ∃ b, m.get? a = some b :=
  Option.isSome_iff_exists

theorem mem_keys_iff {m : OrderedMap α β} {a : α} : a ∈ m.keys ↔ m.contains a = true := by
  rw [contains_iff]
  constructor
  · intro hmem
    obtain ⟨⟨_, b⟩, he, rfl⟩ := List.mem_map.mp hmem
    exact ⟨b, get?_eq_some_of_mem he⟩
  · rintro ⟨b, hb⟩
    exact List.mem_map_of_mem (mem_entries_of_get? hb)

theorem get?_congr {m n : OrderedMap α β} (h : ∀ e, e ∈ m.entries ↔ e ∈ n.entries) (a : α) :
    m.get? a = n.get? a := by
  refine Option.ext fun b => ⟨fun hm => ?_, fun hn => ?_⟩
  · exact get?_eq_some_of_mem ((h _).mp (mem_entries_of_get? hm))
  · exact get?_eq_some_of_mem ((h _).mpr (mem_entries_of_get? hn))

theorem entries_insertAll {es : List (α × β)} : ∀ {m : OrderedMap α β},
    ((m.entries ++ es).map Prod.fst).Nodup → (m.insertAll es).entries = m.entries ++ es := by
  induction es with
  | nil => simp [insertAll]
  | cons e es ih =>
    intro m h
    have hnew : e.1 ∉ m.entries.map Prod.fst := by
      rw [List.map_append, List.nodup_append] at h
      intro hm
      exact h.2.2 e.1 hm e.1 (by simp) rfl
    have hinsert : (m.insert e.1 e.2).entries = m.entries ++ [e] := putEntry_of_notMem hnew
    have hrest := ih (m := m.insert e.1 e.2) (by simpa [hinsert] using h)
    rw [hinsert] at hrest
    simpa [insertAll] using hrest

theorem keys_insertAll (m n : OrderedMap α β) :
    (m.insertAll n.entries).keys = m.keys ++ n.keys.filter (!m.contains ·) := by
  obtain ⟨es, hes⟩ := n
  show (m.insertAll es).keys = m.keys ++ (es.map Prod.fst).filter (!m.contains ·)
  induction es generalizing m with
  | nil => simp [insertAll]
  | cons e es ih =>
    rw [List.map_cons, List.nodup_cons] at hes
    have hrest : (m.insertAll (e :: es)).keys = (m.insert e.1 e.2).keys ++
        (es.map Prod.fst).filter (!(m.insert e.1 e.2).contains ·) := ih _ hes.2
    have hfilter : (es.map Prod.fst).filter (!(m.insert e.1 e.2).contains ·) =
        (es.map Prod.fst).filter (!m.contains ·) := by
      apply List.filter_congr
      intro a ha
      have hne : a ≠ e.1 := fun heq => hes.1 (heq ▸ ha)
      simp [contains, get?_insert, hne]
    rw [hrest, hfilter, keys_insert, List.map_cons]
    by_cases hmem : m.contains e.1 = true
    · rw [if_pos (mem_keys_iff.mpr hmem), List.filter_cons_of_neg (by simp [hmem])]
    · rw [if_neg (mt mem_keys_iff.mp hmem), List.filter_cons_of_pos (by simp [hmem]),
        List.append_assoc, List.singleton_append]

theorem get?_insertAll (m n : OrderedMap α β) (a : α) :
    (m.insertAll n.entries).get? a = (n.get? a).or (m.get? a) := by
  obtain ⟨es, hes⟩ := n
  simp only [get?]
  induction es generalizing m with
  | nil => rfl
  | cons e es ih =>
    obtain ⟨k, v⟩ := e
    rw [List.map_cons, List.nodup_cons] at hes
    have hinsert : m.insertAll ((k, v) :: es) = (m.insert k v).insertAll es := rfl
    have hget := get?_insert m k a v
    simp only [get?] at hget
    rw [hinsert, ih _ hes.2, hget, List.lookup_cons]
    by_cases ha : a = k
    · have hnone : es.lookup k = none := by
        rw [List.lookup_eq_none_iff]
        intro e he
        have hne : k ≠ e.1 := fun heq => hes.1 (List.mem_map.mpr ⟨e, he, heq.symm⟩)
        simpa using hne
      simp [ha, hnone]
    · have hne : (a == k) = false := by simpa using ha
      simp [ha, hne]

theorem entries_ofList {es : List (α × β)} (h : (es.map Prod.fst).Nodup) :
    (ofList es).entries = es :=
  entries_insertAll (m := empty) h

theorem ofList_entries (m : OrderedMap α β) : ofList m.entries = m := by
  have h := entries_ofList m.nodup
  rcases hm : ofList m.entries with ⟨es, hes⟩
  rw [hm] at h
  cases h
  rfl

theorem get?_mapValues {γ : Type} (f : β → γ) (m : OrderedMap α β) (a : α) :
    (m.mapValues f).get? a = (m.get? a).map f := by
  obtain ⟨es, hes⟩ := m
  simp only [mapValues, get?]
  clear hes
  induction es with
  | nil => rfl
  | cons e es ih =>
    rw [List.map_cons, List.lookup_cons, List.lookup_cons]
    split
    · rfl
    · exact ih

end OrderedMap

end Typeahead
