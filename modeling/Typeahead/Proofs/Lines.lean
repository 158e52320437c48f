import Typeahead.Proofs.Quoting

/-!
# Documents read back line by line

`parse_writeBlocks` says that a written document is read as the lines it was written from: for each
table its header and one assignment for each field. A value is read up to the end of its line
(`readValue_write`), whatever the line ends and quotes in it; a line is read as one statement
(`IsLine.readStatements`), after empty lines or without; and a table is its lines
(`readStatements_block`).
-/

namespace Typeahead.Toml

/-! ## Keys -/

/-- What a written key starts with: no blank, bracket or comment sign. -/
def isKeyStart (c : Char) : Bool := isBareKeyChar c || c == '"' || c == '\''

theorem exists_writeKey_eq_cons (t : Text) :
    ∃ c u, writeKey t = c :: u ∧ isKeyStart c = true := by
  unfold writeKey
  split_ifs with hbare
  · rcases t with _ | ⟨c, t⟩
    · simp at hbare
    · simp only [ne_eq, Bool.and_eq_true, List.all_cons] at hbare
      exact ⟨c, t, rfl, by simp [isKeyStart, hbare.2.1]⟩
  all_goals exact ⟨_, _, rfl, rfl⟩

theorem skipSpaces_of_head {c : Char} (h : isSpace c = false) (t : Text) :
    skipSpaces (c :: t) = c :: t := by
  simp [skipSpaces, h]

theorem isSpace_of_isKeyStart {c : Char} (h : isKeyStart c = true) : isSpace c = false := by
  rw [isSpace, Bool.or_eq_false_iff, beq_eq_false_iff_ne, beq_eq_false_iff_ne]
  constructor <;> rintro rfl <;> exact absurd h (by decide)

theorem skipSpaces_writeKey (t rest : Text) :
    skipSpaces (writeKey t ++ rest) = writeKey t ++ rest := by
  obtain ⟨c, u, hu, hc⟩ := exists_writeKey_eq_cons t
  rw [hu, List.cons_append, skipSpaces_of_head (isSpace_of_isKeyStart hc)]

theorem readKeyPath_join {rest : Text} (hrest : ∀ c ∈ rest.head?, isBareKeyChar c = false)
    (hdot : (skipSpaces rest).head? ≠ some '.') : ∀ {path : KeyPath}, path ≠ [] →
    readKeyPath (Text.join ['.'] (path.map writeKey) ++ rest) = some (path, skipSpaces rest)
  | [], h => absurd rfl h
  | [key], _ => by
    rw [List.map_singleton, Text.join, readKeyPath, skipSpaces_writeKey, readKey_writeKey hrest]
    simp only
    split
    · next h =>
      rw [h] at hdot
      exact absurd rfl hdot
    · rfl
  | key :: next :: path, _ => by
    have ih := readKeyPath_join hrest hdot (List.cons_ne_nil next path)
    rw [List.map_cons, List.map_cons, Text.join, ← List.map_cons, List.append_assoc,
      List.append_assoc, List.singleton_append, readKeyPath, skipSpaces_writeKey,
      readKey_writeKey (by simp; decide)]
    simp only [skipSpaces_of_head (show isSpace '.' = false from rfl)]
    rw [if_pos (by simp; omega), ih]
    · rfl
    · simp

/-! ## Values -/

/-- What a written value is read as. -/
def Field.value : Field → Value
  | text t => .text t
  | boolean b => .boolean b
  | texts items => .array (items.map .text)

theorem exists_writeString_eq_cons (t : Text) :
    ∃ c u, writeString t = c :: u ∧ (c = '"' ∨ c = '\'') := by
  unfold writeString
  simp only
  split_ifs
  all_goals first
    | exact ⟨_, _, rfl, .inl rfl⟩
    | exact ⟨_, _, rfl, .inr rfl⟩

theorem readScalar_of_quote {c : Char} (hc : c = '"' ∨ c = '\'') (t : Text) :
    readScalar (c :: t) = (readString? (c :: t)).map fun (s, rest) => (.text s, rest) := by
  rcases hc with rfl | rfl <;> rfl

theorem readValue_of_quote {c : Char} (hc : c = '"' ∨ c = '\'') (t : Text) (depth : Nat) :
    readValue depth (c :: t) = readScalar (c :: t) := by
  cases depth with
  | zero => rfl
  | succ depth => rcases hc with rfl | rfl <;> rfl

theorem readValue_writeString {rest : Text} (hq : rest.head? ≠ some '"')
    (ht : rest.head? ≠ some '\'') (t : Text) (depth : Nat) :
    readValue depth (writeString t ++ rest) = some (.text t, rest) := by
  have hread := readString?_writeString hq ht t
  obtain ⟨c, u, hu, hc⟩ := exists_writeString_eq_cons t
  rw [hu, List.cons_append] at hread ⊢
  rw [readValue_of_quote hc, readScalar_of_quote hc, hread]
  rfl

theorem skipFiller_of_head {c : Char} (hn : c ≠ '\n') (hr : c ≠ '\r') (hs : isSpace c = false)
    (hc : c ≠ '#') (t : Text) : skipFiller false (c :: t) = some (c :: t) := by
  rw [skipFiller]
  · simp [hs, hc]
  · simpa using hn
  · simp [hr]

section Items

variable {α : Type} {item : Reader α} {close : Char} {t u after rest : Text} {x : α}

theorem readItems_nil (ht : skipFiller false t = some (close :: rest)) :
    readItems item close t = some ([], rest) := by
  rw [readItems, ht]
  simp

theorem readItems_last (ht : skipFiller false t = some u) (hu : ∃ c ∈ u.head?, c ≠ close)
    (hx : item u = some (x, after)) (hafter : skipFiller false after = some (close :: rest)) :
    readItems item close t = some ([x], rest) := by
  rcases u with _ | ⟨c, u⟩
  · simp at hu
  · simp only [List.head?_cons, Option.mem_def, Option.some.injEq, exists_eq_left'] at hu
    rw [readItems, ht]
    simp [hu, hx, hafter]

theorem readItems_cons (ht : skipFiller false t = some u) (hu : ∃ c ∈ u.head?, c ≠ close)
    (hx : item u = some (x, ',' :: rest)) (hclose : close ≠ ',') (hlt : rest.length < t.length) :
    readItems item close t =
      (readItems item close rest).map fun (others, after) => (x :: others, after) := by
  rcases u with _ | ⟨c, u⟩
  · simp at hu
  · simp only [List.head?_cons, Option.mem_def, Option.some.injEq, exists_eq_left'] at hu
    have hcomma : skipFiller false (',' :: rest) = some (',' :: rest) := rfl
    rw [readItems, ht]
    simp [hu, hx, hcomma, hclose.symm, hlt]

end Items

theorem skipFiller_writeString (t rest : Text) :
    skipFiller false (writeString t ++ rest) = some (writeString t ++ rest) := by
  obtain ⟨c, u, hu, hc⟩ := exists_writeString_eq_cons t
  rw [hu, List.cons_append]
  rcases hc with rfl | rfl <;> rfl

theorem head?_writeString (t rest : Text) : ∃ c ∈ (writeString t ++ rest).head?, c ≠ ']' := by
  obtain ⟨c, u, hu, hc⟩ := exists_writeString_eq_cons t
  refine ⟨c, by simp [hu], ?_⟩
  rcases hc with rfl | rfl <;> decide

theorem readItems_writeString (t rest : Text) (depth : Nat) :
    readItems (readValue depth) ']' (writeString t ++ ']' :: rest) = some ([.text t], rest) :=
  readItems_last (skipFiller_writeString t _) (head?_writeString t _)
    (readValue_writeString (by simp) (by simp) t depth) rfl

theorem readItems_lines (rest : Text) (depth : Nat) : ∀ items : List Text,
    readItems (readValue depth) ']' ('\n' :: (items.flatMap (fun t =>
      "    ".toList ++ writeString t ++ ",\n".toList) ++ ']' :: rest)) =
      some (items.map .text, rest)
  | [] => readItems_nil rfl
  | t :: items => by
    have ih := readItems_lines rest depth items
    rw [List.flatMap_cons, List.append_assoc, List.append_assoc, List.append_assoc]
    -- The line end in front of an item stands after the bracket or after the comma before it.
    have hskip : ∀ u, skipFiller false ('\n' :: ("    ".toList ++ (writeString t ++ u))) =
      some (writeString t ++ u) := skipFiller_writeString t
    refine (readItems_cons (hskip _) (head?_writeString t _)
      (readValue_writeString (by simp) (by simp) t depth) (by decide) ?_).trans ?_
    · simp
      omega
    · exact (congrArg (Option.map _) ih).trans rfl

theorem readValue_write (rest : Text) (depth : Nat) : ∀ f : Field,
    readValue (depth + 1) (f.write ++ '\n' :: rest) = some (f.value, '\n' :: rest)
  | .text t => readValue_writeString (by simp) (by simp) t _
  | .boolean true => rfl
  | .boolean false => rfl
  | .texts [] => by
    have h : readItems (readValue depth) ']' (']' :: '\n' :: rest) = some ([], '\n' :: rest) :=
      readItems_nil rfl
    exact (congrArg (Option.map _) h).trans rfl
  | .texts [t] => by
    have hwrite : (Field.texts [t]).write ++ '\n' :: rest =
        '[' :: (writeString t ++ ']' :: '\n' :: rest) :=
      List.append_assoc ('[' :: writeString t) [']'] ('\n' :: rest)
    rw [hwrite]
    exact (congrArg (Option.map _) (readItems_writeString t ('\n' :: rest) depth)).trans rfl
  | .texts (s :: t :: items) => by
    have hwrite : (Field.texts (s :: t :: items)).write ++ '\n' :: rest =
        '[' :: '\n' :: ((s :: t :: items).flatMap (fun t =>
          "    ".toList ++ writeString t ++ ",\n".toList) ++ ']' :: '\n' :: rest) :=
      List.append_assoc ('[' :: '\n' :: _) [']'] ('\n' :: rest)
    have hread := readItems_lines ('\n' :: rest) depth (s :: t :: items)
    rw [hwrite]
    exact (congrArg (Option.map _) hread).trans rfl

/-! ## Lines -/

/-- A text that is read as one statement when the line ends behind it. -/
structure IsLine (line : Text) (statement : Statement) : Prop where
  start : ∀ rest, skipFiller false (line ++ rest) = some (line ++ rest)
  read : ∀ rest, readStatement (line ++ '\n' :: rest) = some (statement, '\n' :: rest)

theorem skipFiller_newlines (n : Nat) (t : Text) :
    skipFiller false (List.replicate n '\n' ++ t) = skipFiller false t := by
  induction n with
  | zero => rfl
  | succ n ih => exact ih

theorem IsLine.readStatements {line : Text} {statement : Statement} (h : IsLine line statement)
    (n : Nat) (rest : Text) :
    readStatements (List.replicate n '\n' ++ (line ++ '\n' :: rest)) =
      (Toml.readStatements rest).map (statement :: ·) := by
  have hstart := (skipFiller_newlines n _).trans (h.start ('\n' :: rest))
  have hread := h.read rest
  rw [Toml.readStatements, hstart]
  rcases hline : line ++ '\n' :: rest with _ | ⟨c, u⟩
  · simp at hline
  · rw [hline] at hread
    -- What is left is shorter, which is what the reader checks before it goes on.
    have hend : skipLineEnd false ('\n' :: rest) = some rest := rfl
    have hlength := congrArg List.length hline
    simp only [List.length_append, List.length_cons] at hlength
    simp only [hread, hend]
    rw [if_pos]
    simp only [List.length_append, List.length_cons]
    omega

theorem exists_join_writeKey_eq_cons {path : KeyPath} (h : path ≠ []) :
    ∃ c u, Text.join ['.'] (path.map writeKey) = c :: u ∧ isKeyStart c = true := by
  match path, h with
  | [key], _ => exact exists_writeKey_eq_cons key
  | key :: next :: path, _ =>
    obtain ⟨c, u, hu, hc⟩ := exists_writeKey_eq_cons key
    refine ⟨c, u ++ ['.'] ++ Text.join ['.'] ((next :: path).map writeKey), ?_, hc⟩
    simp [Text.join, hu]

theorem readStatement_header {t after : Text} {path : KeyPath} (ht : t.head? ≠ some '[')
    (hpath : readKeyPath t = some (path, ']' :: after)) :
    readStatement ('[' :: t) = some (.header path, after) := by
  unfold readStatement
  split
  · next h =>
    cases h
    exact absurd rfl ht
  · next h =>
    cases h
    simp [hpath]
  · next h => exact absurd rfl (h t)

theorem readStatement_assignment {t after : Text} {path : KeyPath} {value : Value}
    (ht : t.head? ≠ some '[')
    (hpair : readPair (readValue nestingLimit) t = some ((path, value), after)) :
    readStatement t = some (.assignment path value, after) := by
  unfold readStatement
  split
  · exact absurd rfl ht
  · exact absurd rfl ht
  · simp [hpair]

theorem isLine_header {path : KeyPath} (h : path ≠ []) :
    IsLine (['['] ++ Text.join ['.'] (path.map writeKey) ++ [']']) (.header path) where
  start rest := rfl
  read rest := by
    obtain ⟨c, u, hu, hc⟩ := exists_join_writeKey_eq_cons h
    simp only [List.append_assoc, List.singleton_append]
    refine readStatement_header ?_ ?_
    · rw [hu]
      rintro ⟨⟩
      exact absurd hc (by decide)
    · exact readKeyPath_join (by simp; decide) (by simp [skipSpaces, isSpace]) h

theorem skipSpaces_write (f : Field) (rest : Text) :
    skipSpaces (f.write ++ rest) = f.write ++ rest := by
  match f with
  | .text t =>
    obtain ⟨c, u, hu, hc⟩ := exists_writeString_eq_cons t
    change skipSpaces (writeString t ++ rest) = writeString t ++ rest
    rw [hu, List.cons_append]
    rcases hc with rfl | rfl <;> rfl
  | .boolean true | .boolean false => rfl
  | .texts [] | .texts [_] | .texts (_ :: _ :: _) => rfl

theorem readPair_write (key : Text) (f : Field) (rest : Text) (depth : Nat) :
    readPair (readValue (depth + 1)) (writeKey key ++ (" = ".toList ++ (f.write ++ '\n' :: rest))) =
      some (([key], f.value), '\n' :: rest) := by
  have hpath : readKeyPath (writeKey key ++ (" = ".toList ++ (f.write ++ '\n' :: rest))) =
      some ([key], '=' :: ' ' :: (f.write ++ '\n' :: rest)) :=
    readKeyPath_join (by simp; decide) (by simp [skipSpaces, isSpace]) (List.cons_ne_nil key [])
  have hspace : skipSpaces (' ' :: (f.write ++ '\n' :: rest)) = f.write ++ '\n' :: rest :=
    skipSpaces_write f _
  rw [readPair, hpath]
  simp [hspace, readValue_write]

theorem isLine_assignment (key : Text) (f : Field) :
    IsLine (writeKey key ++ " = ".toList ++ f.write) (.assignment [key] f.value) where
  start rest := by
    obtain ⟨c, u, hu, hc⟩ := exists_writeKey_eq_cons key
    rw [List.append_assoc, List.append_assoc, hu, List.cons_append]
    refine skipFiller_of_head ?_ ?_ (isSpace_of_isKeyStart hc) ?_ _
    all_goals
      rintro rfl
      exact absurd hc (by decide)
  read rest := by
    obtain ⟨c, u, hu, hc⟩ := exists_writeKey_eq_cons key
    simp only [List.append_assoc]
    refine readStatement_assignment ?_ (readPair_write key f rest (nestingLimit - 1))
    rw [hu]
    rintro ⟨⟩
    exact absurd hc (by decide)

/-! ## Tables -/

/-- The lines of a table as they are read. -/
def Block.statements (b : Block) : List Statement :=
  .header b.header :: b.fields.map fun f => .assignment [f.1] f.2.value

theorem readStatements_fields (rest : Text) : ∀ fields : List (Text × Field),
    readStatements (fields.flatMap (fun f => writeKey f.1 ++ " = ".toList ++ f.2.write ++ ['\n']) ++
      rest) = (readStatements rest).map
        (fields.map (fun f => Statement.assignment [f.1] f.2.value) ++ ·)
  | [] => by simp
  | f :: fields => by
    have hline := (isLine_assignment f.1 f.2).readStatements 0
    have ih := readStatements_fields rest fields
    rw [List.flatMap_cons, List.append_assoc, List.append_assoc, List.singleton_append]
    refine (hline _).trans ?_
    rw [ih, Option.map_map]
    rfl

theorem readStatements_block {b : Block} (h : b.header ≠ []) (n : Nat) (rest : Text) :
    readStatements (List.replicate n '\n' ++ (b.write ++ rest)) =
      (readStatements rest).map (b.statements ++ ·) := by
  have hline := (isLine_header h).readStatements n
  have hfields := readStatements_fields rest b.fields
  have hwrite : b.write ++ rest = ['['] ++ Text.join ['.'] (b.header.map writeKey) ++ [']'] ++
      '\n' :: (b.fields.flatMap (fun f =>
        writeKey f.1 ++ " = ".toList ++ f.2.write ++ ['\n']) ++ rest) := by
    have hclose : "]\n".toList = [']', '\n'] := rfl
    simp [Block.write, hclose]
  rw [hwrite, hline, hfields, Option.map_map]
  rfl

theorem readStatements_writeBlocks : ∀ (blocks : List Block), (∀ b ∈ blocks, b.header ≠ []) →
    ∀ n, readStatements (List.replicate n '\n' ++ writeBlocks blocks) =
      some (blocks.flatMap Block.statements)
  | [], _, n => by
    have hskip := skipFiller_newlines n []
    rw [writeBlocks, List.map_nil, Text.join, readStatements, hskip]
    rfl
  | [b], h, n => by
    have hread := readStatements_block (h b (by simp)) n []
    have hnil : readStatements [] = some [] := by
      rw [readStatements]
      rfl
    rw [List.append_nil, hnil] at hread
    simpa [writeBlocks, Text.join] using hread
  | b :: c :: blocks, h, n => by
    have ih := readStatements_writeBlocks (c :: blocks) (fun d hd => h d (.tail b hd)) 1
    have hwrite : writeBlocks (b :: c :: blocks) =
        b.write ++ (List.replicate 1 '\n' ++ writeBlocks (c :: blocks)) := by
      simp [writeBlocks, Text.join]
    rw [hwrite, readStatements_block (h b (by simp)), ih]
    rfl

theorem parse_writeBlocks {blocks : List Block} (h : ∀ b ∈ blocks, b.header ≠ []) :
    parse (writeBlocks blocks) = Document.ofStatements (blocks.flatMap Block.statements) := by
  have hread := readStatements_writeBlocks blocks h 0
  have hmark : (writeBlocks blocks).head? ≠ some '\ufeff' := by
    match blocks with
    | [] | [b] | b :: c :: _ => simp [writeBlocks, Text.join, Block.write]
  rw [List.replicate_zero, List.nil_append] at hread
  unfold parse
  split
  · next h => exact absurd (congrArg List.head? h) hmark
  · simp only [hread, Option.bind_some]

end Typeahead.Toml
