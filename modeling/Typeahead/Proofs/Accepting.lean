import Typeahead.Proofs.Coherence
import Typeahead.Proofs.Entering
import Typeahead.Proofs.Ranking

/-!
# Guesses are accepted

Whatever a session offers is one token of a kind that it predicts
(`exists_token_of_mem_guessesFor`): a keyword is read as itself, a parenthesis too, and an
attribute, with or without the path to it, as a property, provided that the names of the schema are
words and not keywords. A path is made of such names, since each segment that was walked is the name
of an attribute met on the way (`Path.names_of_resolve`). To enter a guess and commit it therefore
adds just that token (`Session.guess_accepted`).
-/

namespace Typeahead

open Token CharClass

/-- A word that can be the name of an attribute: a letter or an underscore, followed by letters,
digits and underscores. -/
def isName : Text → Bool
  | [] => false
  | c :: rest => startsPath c && rest.all isWord

/-- Names with dots between them, or at least read like that. -/
def isPath : Text → Bool
  | [] => false
  | c :: rest => startsPath c && rest.all continuesPath

section Words

variable {c : Char} {t u : Text}

theorem continuesPath_of_startsPath (h : startsPath c = true) : continuesPath c = true := by
  simp only [startsPath, Bool.or_eq_true] at h
  rcases h with h | h <;> simp [continuesPath, isWord, Char.isAlphanum, h]

theorem not_startsPath_of_isDigit (h : c.isDigit = true) : startsPath c = false := by
  have hle : c.toNat ≤ 57 := by
    simp only [Char.isDigit, Bool.and_eq_true, decide_eq_true_eq] at h
    exact h.2
  have halpha : c.isAlpha = false := by
    have hletter : c.isAlpha = (decide ('A'.val ≤ c.val ∧ c.val ≤ 'Z'.val) ||
      (decide ('a'.val ≤ c.val) && decide (c.val ≤ 'z'.val))) := rfl
    have hupper : ¬ 'A'.val ≤ c.val := fun h => absurd (Nat.le_trans h hle) (by decide)
    have hlower : ¬ 'a'.val ≤ c.val := fun h => absurd (Nat.le_trans h hle) (by decide)
    rw [hletter, decide_eq_false (fun h => hupper h.1), decide_eq_false hlower]
    rfl
  have hunderscore : c ≠ '_' := by
    rintro rfl
    cases h
  simp [startsPath, halpha, hunderscore]

theorem isPath_of_isName : ∀ {t : Text}, isName t = true → isPath t = true
  | c :: rest, h => by
    simp only [isName, Bool.and_eq_true, List.all_eq_true] at h
    simp only [isPath, Bool.and_eq_true, List.all_eq_true]
    exact ⟨h.1, fun d hd => by simp [continuesPath, h.2 d hd]⟩

theorem isPath_append_dot : ∀ {t u : Text}, isPath t = true → isPath u = true →
    isPath (t ++ '.' :: u) = true
  | c :: t, d :: u, ht, hu => by
    simp only [isPath, Bool.and_eq_true] at ht hu
    have hdot : continuesPath '.' = true := by decide
    simp [isPath, ht.1, ht.2, hu.2, hdot, continuesPath_of_startsPath hu.1]

theorem isPath_join : ∀ {ts : List Text}, ts ≠ [] → (∀ t ∈ ts, isName t = true) →
    isPath (Text.join ['.'] ts) = true
  | [t], _, h => isPath_of_isName (h t List.mem_cons_self)
  | t :: u :: ts, _, h => by
    have ih := isPath_join (List.cons_ne_nil u ts) fun t' hm => h t' (List.mem_cons_of_mem t hm)
    have hjoin : Text.join ['.'] (t :: u :: ts) = t ++ '.' :: Text.join ['.'] (u :: ts) := by
      simp [Text.join]
    rw [hjoin]
    exact isPath_append_dot (isPath_of_isName (h t List.mem_cons_self)) ih

end Words

namespace Grammar

variable {c : Char} {t : Text}

theorem name_of_keyword? {k : TokenKind} (h : standard.keyword? t = some k) : k.name = t := by
  have hm := List.mem_of_getLast? h
  rw [List.mem_map] at hm
  obtain ⟨⟨k', r⟩, hr, rfl⟩ := hm
  simp only [List.mem_filter, Bool.and_eq_true, decide_eq_true_eq] at hr
  exact hr.2.2

/-- No keyword has a dot in it. -/
theorem keyword?_of_dot (h : '.' ∈ t) : standard.keyword? t = none := by
  have hdots : ∀ k : TokenKind, '.' ∉ k.name := by
    intro k
    cases k <;> decide
  rcases hw : standard.keyword? t with _ | k
  · rfl
  · exact absurd (name_of_keyword? hw ▸ h) (hdots k)

/-- What starts a path starts nothing else. -/
theorem start?_of_startsPath (h : startsPath c = true) : ∃ l, Pending.start? standard c =
    some (⟨.property, l, [c], none⟩, false) ∧ l.format = none ∧ l.delimiter = none ∧
      ∀ d, l.stops d = !continuesPath d := by
  have hne : ∀ d, startsPath d = false → c ≠ d := by
    rintro d hd rfl
    rw [h] at hd
    cases hd
  unfold Pending.start?
  rcases he : standard.starting? c with _ | ⟨k, l, single⟩
  · have hnone : startsPath c = false :=
      starting?_eq_none he (mem_entries_standard.2 rfl) (k := .property) rfl
    rw [h] at hnone
    cases hnone
  · obtain ⟨⟨r, hr, hl, hb⟩, hs⟩ := starting?_eq_some he
    rw [mem_entries_standard] at hr
    subst hr
    simp only at hl hb hs
    cases k <;> cases hl
    case property.refl => exact ⟨_, by rw [← hb]; rfl, rfl, rfl, fun _ => rfl⟩
    case unknown.refl =>
      have hword : isWord c = true := by
        simp only [startsPath, Bool.or_eq_true] at h
        rcases h with h | h <;> simp [isWord, Char.isAlphanum, h]
      simp [isSymbol, hword] at hs
    case number.refl =>
      simp only [startsNumber, Bool.or_eq_true, beq_iff_eq] at hs
      rcases hs with hs | hs
      · exact absurd h (by simp [not_startsPath_of_isDigit hs])
      · exact absurd hs (hne '-' (by decide))
    case string.refl =>
      simp only [Lexeme.delimited, isQuote, Bool.or_eq_true, beq_iff_eq] at hs
      rcases hs with hs | hs <;> exact absurd hs (hne _ (by decide))
    all_goals exact absurd (beq_iff_eq.1 hs) (hne _ (by decide))

end Grammar

namespace Token

variable {token : Token} {t : Text}

/-- A token whose literal is read as that token and nothing else was read to its end. -/
theorem endsBefore_of_scan_literal (hscan : scan .standard token.literal = [token])
    (hopen : leavesOpen .standard token.literal = false) : token.EndsBefore [] := by
  have hsolid : token.Solid := (segmented_scan token.literal).solid token (by rw [hscan]; simp)
  obtain ⟨c, rest, hfirst, hc, hbrace⟩ := hsolid.first
  have hstart : Text.trimStart token.literal = token.literal := by
    rw [hfirst, Text.trimStart_cons_of_not_blank hc]
  cases front token.literal with
  | blank hb =>
    rw [scan_of_blank hb] at hscan
    cases hscan
  | @token first u hs he =>
    rw [hstart] at hs
    rw [hs, he.scan_append, List.cons.injEq] at hscan
    obtain ⟨rfl, -⟩ := hscan
    rw [List.self_eq_append_right] at hs
    exact hs ▸ he
  | stuck hs =>
    rcases hs with ⟨hu⟩ | ⟨-, -, hu⟩
    · rw [hstart, hfirst, List.cons.injEq] at hu
      exact absurd hu.1 hbrace
    · rw [hopen] at hu
      cases hu

theorem endsBefore_keyword {k : TokenKind} (h : (Grammar.standardRule k).reserved = true) :
    EndsBefore ⟨k, k.name, none⟩ [] ∧ (⟨k, k.name, none⟩ : Token).literal = k.name := by
  cases k <;> first
    | exact absurd h (by decide)
    | exact ⟨endsBefore_of_scan_literal (by decide) (by decide), rfl⟩

theorem endsBefore_path (h : isPath t = true) (hw : Grammar.standard.keyword? t = none) :
    EndsBefore ⟨.property, t, none⟩ [] := by
  rcases t with _ | ⟨c, run⟩
  · cases h
  simp only [isPath, Bool.and_eq_true, List.all_eq_true] at h
  obtain ⟨l, hstart, hformat, hdelimiter, hstops⟩ := Grammar.start?_of_startsPath h.1
  have hrun : ∀ d ∈ run, Pending.endsAt ⟨.property, l, [c], none⟩ d = false := fun d hd => by
    simp [Pending.endsAt, hstops, h.2 d hd]
  have htoken : Pending.token .standard ⟨.property, l, c :: run, none⟩ =
      ⟨.property, c :: run, none⟩ := by
    simp [Pending.token, hformat, hdelimiter, hw]
  exact .plain (reading_of_start? hstart hrun) htoken rfl (by simp)

end Token

namespace Path

variable {schema : Schema} {P : Text → Prop}

/-- What holds of every name of a schema holds of the names walked and of those met at the end. -/
theorem names_of_resolve
    (hP : ∀ type table, schema type = some table → ∀ name ∈ table.keys, P name) {root t : Text}
    {p : Path} (h : resolve schema root t = some p) :
    (∀ name ∈ p.attributes.keys, P name) ∧ ∀ name ∈ p.segments, P name := by
  refine ⟨hP _ _ (attributes_of_resolve h), ?_⟩
  induction t using Text.dottedInduction generalizing root p with
  | last t hdot =>
    rw [resolve_of_notMem hdot, Option.map_eq_some_iff] at h
    obtain ⟨table, -, rfl⟩ := h
    exact fun name hname => nomatch hname
  | hop segment rest hdot ih =>
    simp only [resolve_hop hdot, Option.bind_eq_some_iff, Option.map_eq_some_iff] at h
    obtain ⟨table, htable, hop, hhop, place, hplace, rfl⟩ := h
    obtain ⟨attr, hattr, -⟩ := get?_of_hop? hhop
    intro name hname
    rcases List.mem_cons.1 hname with rfl | hname
    · exact hP root table htable _ (OrderedMap.mem_keys_of_get? hattr)
    · exact ih hplace name hname

end Path

/-- The names of the attributes are words, and none of them is a keyword. -/
def Schema.Readable (schema : Schema) : Prop :=
  ∀ type table, schema type = some table → ∀ name ∈ table.keys,
    isName name = true ∧ Grammar.standard.keyword? name = none

/-- An attribute that is offered is read as a property. -/
theorem Schema.Readable.endsBefore {schema : Schema} (h : schema.Readable) {root t g : Text}
    {qualified : Bool} (hg : g ∈ Path.guesses schema root qualified t) :
    EndsBefore ⟨.property, g, none⟩ [] := by
  unfold Path.guesses at hg
  split at hg
  · cases hg
  rename_i p hp
  obtain ⟨hkeys, hsegments⟩ := Path.names_of_resolve h hp
  obtain ⟨name, hname, rfl⟩ := List.mem_map.1 hg
  obtain ⟨hword, hkeyword⟩ := hkeys name (Path.mem_matching.1 hname).1
  unfold Path.qualifier
  split_ifs with hq hnil
  · exact endsBefore_path (isPath_of_isName hword) hkeyword
  · rw [List.append_assoc, List.singleton_append]
    have hjoin := isPath_join (by simpa using hnil) fun n hn => (hsegments n hn).1
    exact endsBefore_path (isPath_append_dot hjoin (isPath_of_isName hword))
      (Grammar.keyword?_of_dot (by simp))
  · exact endsBefore_path (isPath_of_isName hword) hkeyword

namespace Session

variable {s : Session} {g t : Text}

/-- Whatever is offered is one token of the kind for which it is offered. -/
theorem exists_token_of_mem_guessesFor {setup : Setup} (hgrammar : setup.grammar = .standard)
    (hnames : ∀ schema ∈ setup.schema, schema.Readable) {root : Option Text} {kind : TokenKind}
    (h : g ∈ guessesFor setup root t kind) :
    ∃ token : Token, token.EndsBefore [] ∧ token.literal = g ∧ token.kind = kind := by
  unfold guessesFor at h
  rw [hgrammar, Grammar.get?_standard, Option.any_some] at h
  split_ifs at h with hproperty hreserved hoffer hopen hclose
  · unfold attributeGuesses at h
    split at h
    · rename_i schema root hschema
      exact ⟨⟨.property, g, none⟩, (hnames schema hschema).endsBefore h, rfl, hproperty.symm⟩
    · cases h
  · rw [List.mem_singleton.1 h]
    exact ⟨⟨kind, kind.name, none⟩, (endsBefore_keyword hreserved).1,
      (endsBefore_keyword hreserved).2, rfl⟩
  · cases h
  · rw [List.mem_singleton.1 h, hopen.1]
    exact ⟨⟨.openParen, ['('], none⟩, endsBefore_of_scan_literal (by decide) (by decide), rfl, rfl⟩
  · rw [List.mem_singleton.1 h, hclose.1]
    exact ⟨⟨.closeParen, [')'], none⟩, endsBefore_of_scan_literal (by decide) (by decide), rfl, rfl⟩
  · cases h

/-- Accepting a guess. Let the names of the schema be words and not keywords. Whatever a session
went through, to enter a text that it offers and to commit it succeeds, adds one token, which has
that literal and a kind that was predicted, and leaves no text. -/
theorem guess_accepted
    (validator : Grammar → List Token → Except QueryError (Option Tree)) (schema : Option Schema)
    (options : Options) (root : Option Text) (hnames : ∀ types ∈ schema, types.Readable)
    (calls : List Call) :
    let s := (start { validator, schema, options } root).after calls
    ∀ g ∈ s.snapshot.guesses, ∃ token s₁ s₂, next (s.setText g) = .ok s₁ ∧
      next s₁.commit = .ok s₂ ∧ s₂.draft = ⟨s.draft.tokens ++ [token], []⟩ ∧
      token.literal = g ∧ token.kind ∈ s.snapshot.predictions := by
  intro s g hg
  have hplain : s.Plain := (plain_start validator schema options root).after calls
  have hsettled : s.Settled := (settle_settled _).after calls
  have hsetup : s.setup = { validator, schema, options } := by rw [after_setup, start_setup]
  obtain ⟨position, hposition⟩ := Position.ofLast_standard s.draft.tokens.getLast?
  obtain ⟨-, -, hguesses⟩ := hsettled.coherent.placed position (hplain.grammar ▸ hposition)
  rw [hguesses] at hg
  obtain ⟨kind, hkind, hg⟩ := List.mem_flatMap.1 hg
  obtain ⟨token, hend, rfl, rfl⟩ :=
    exists_token_of_mem_guessesFor hplain.grammar (by rwa [hsetup]) hg
  obtain ⟨s₁, s₂, hset, hcommit, hdraft⟩ := hplain.enter hsettled hend
  exact ⟨token, s₁, s₂, hset, hcommit, hdraft, rfl, hkind⟩

/-- People with dogs that have bowls. -/
def kennelSchema : Schema := fun type =>
  if type = "Person".toList then some (.ofList [("dog".toList, .toOne "Dog".toList)])
  else if type = "Dog".toList then some (.ofList [("waterBowl".toList, .scalar "String".toList)])
  else none

theorem guess_accepted_path :
    let s := (start { schema := some kennelSchema, options := { qualified := true } }
      (some "Person".toList)).after [.setText "( DOG.w".toList]
    let g := "dog.waterBowl".toList
    (∀ types ∈ some kennelSchema, types.Readable) ∧ g ∈ s.snapshot.guesses ∧
      ∃ token s₁ s₂, next (s.setText g) = .ok s₁ ∧ next s₁.commit = .ok s₂ ∧
        s₂.draft = ⟨s.draft.tokens ++ [token], []⟩ ∧ token.literal = g ∧
        token.kind ∈ s.snapshot.predictions := by
  intro s g
  have hnames : ∀ types ∈ some kennelSchema, types.Readable := by
    rintro _ ⟨⟩ type table h
    unfold kennelSchema at h
    split_ifs at h <;> cases h <;> decide
  have hg : g ∈ s.snapshot.guesses := by decide +kernel
  exact ⟨hnames, hg, guess_accepted Tree.ofTokens (some kennelSchema) { qualified := true }
    (some "Person".toList) hnames _ g hg⟩

end Session

end Typeahead
