import Mathlib.Data.List.TakeDrop
import Typeahead.Proofs.Accepting

/-!
# The tokens there are

The first character of a text tells how its first token is read. Of several rules that start on it
the last one wins, so the rules are tried from the last to the first (`Token.scan_standard_cons`).
It follows that a character is skipped or starts one of the tokens described by `Token.Readable`
(`Token.scan_cons_readable`), so no others are ever read, and each of these is what its own literal
is read as (`Token.readable_iff`).
-/

namespace Typeahead

open CharClass

/-! ### Numbers -/

/-- One or more digits, perhaps with a point and more digits behind them. -/
inductive Unsigned : Text → Prop
  | whole {digits : Text} : isDigits digits = true → Unsigned digits
  | decimal {digits fraction : Text} : isDigits digits = true → isDigits fraction = true →
      Unsigned (digits ++ '.' :: fraction)

/-- A number, perhaps with a minus sign in front. -/
inductive Numeral : Text → Prop
  | positive {t : Text} : Unsigned t → Numeral t
  | negative {t : Text} : Unsigned t → Numeral ('-' :: t)

section Numbers

variable {t : Text}

theorem isDigits_iff : isDigits t = true ↔ t ≠ [] ∧ ∀ c ∈ t, c.isDigit = true := by
  simp [isDigits]

theorem Unsigned.eq_cons (h : Unsigned t) :
    ∃ c run, t = c :: run ∧ c.isDigit = true ∧ ∀ d ∈ run, continuesNumber d = true := by
  have hdigits : ∀ {u : Text}, isDigits u = true →
      ∃ c run, u = c :: run ∧ c.isDigit = true ∧ ∀ d ∈ run, continuesNumber d = true := by
    intro u hu
    obtain ⟨hne, hall⟩ := isDigits_iff.1 hu
    obtain ⟨c, run, rfl⟩ := List.exists_cons_of_ne_nil hne
    exact ⟨c, run, rfl, hall c (by simp), fun d hd => by simp [continuesNumber, hall d, hd]⟩
  cases h with
  | whole h => exact hdigits h
  | decimal h hf =>
    obtain ⟨c, run, rfl, hc, hrun⟩ := hdigits h
    obtain ⟨d, run', rfl, hd, hrun'⟩ := hdigits hf
    refine ⟨c, run ++ '.' :: d :: run', by simp, hc, fun e he => ?_⟩
    simp only [List.mem_append, List.mem_cons] at he
    rcases he with he | rfl | rfl | he
    · exact hrun e he
    · decide
    · simp [continuesNumber, hd]
    · exact hrun' e he

theorem Numeral.eq_cons (h : Numeral t) : ∃ c run, t = c :: run ∧ startsNumber c = true ∧
    ∀ d ∈ run, continuesNumber d = true := by
  cases h with
  | positive h =>
    obtain ⟨c, run, rfl, hc, hrun⟩ := h.eq_cons
    exact ⟨c, run, rfl, by simp [startsNumber, hc], hrun⟩
  | @negative u h =>
    obtain ⟨c, run, rfl, hc, hrun⟩ := h.eq_cons
    refine ⟨'-', c :: run, rfl, by decide, fun d hd => ?_⟩
    rcases List.mem_cons.1 hd with rfl | hd
    · simp [continuesNumber, hc]
    · exact hrun d hd

/-- The point, if there is one, is the first one. -/
theorem unsigned_iff : Unsigned t ↔ (match t.span (· ≠ '.') with
    | (whole, _ :: fraction) => isDigits whole && isDigits fraction
    | (whole, []) => isDigits whole) = true := by
  have hpoint : ∀ {u : Text}, isDigits u = true → ∀ c ∈ u, decide (c ≠ '.') = true := by
    rintro u hu c hc
    have hdigit := (isDigits_iff.1 hu).2 c hc
    rw [decide_eq_true_eq]
    rintro rfl
    exact absurd hdigit (by decide)
  rw [List.span_eq_takeWhile_dropWhile]
  constructor
  · rintro (h | @⟨digits, fraction, h, hf⟩)
    · rw [List.takeWhile_eq_self_iff.2 (hpoint h), List.dropWhile_eq_nil_iff.2 (hpoint h)]
      exact h
    · rw [List.takeWhile_append_of_pos (hpoint h), List.dropWhile_append_of_pos (hpoint h)]
      simp [h, hf]
  · have hsplit := List.takeWhile_append_dropWhile (p := fun c => decide (c ≠ '.')) (l := t)
    have hhead := List.head?_dropWhile_not (fun c => decide (c ≠ '.')) t
    rcases hd : t.dropWhile (fun c => decide (c ≠ '.')) with _ | ⟨c, fraction⟩
    · rw [hd, List.append_nil] at hsplit
      rw [hsplit]
      exact .whole
    · rw [hd] at hsplit hhead
      obtain rfl : c = '.' := by simpa using hhead
      simp only [Bool.and_eq_true]
      rintro ⟨h, hf⟩
      rw [← hsplit]
      exact .decimal h hf

theorem isNumeral_iff : isNumeral t = true ↔ Numeral t := by
  have hminus : ∀ u, isNumeral ('-' :: u) = true ↔ Unsigned u := fun u => unsigned_iff.symm
  have hplain : (∀ u, t ≠ '-' :: u) → (isNumeral t = true ↔ Unsigned t) := by
    intro hne
    have heq := isNumeral.eq_2 t hne
    exact (iff_of_eq (congrArg (· = true) heq)).trans unsigned_iff.symm
  constructor
  · intro h
    by_cases hsign : ∃ u, t = '-' :: u
    · obtain ⟨u, rfl⟩ := hsign
      exact .negative ((hminus u).1 h)
    · exact .positive ((hplain (not_exists.1 hsign)).1 h)
  · rintro (h | @⟨u, h⟩)
    · refine (hplain ?_).2 h
      rintro u rfl
      obtain ⟨c, run, heq, hc, -⟩ := h.eq_cons
      obtain ⟨rfl, -⟩ := List.cons.inj heq
      exact absurd hc (by decide)
    · exact (hminus u).2 h

end Numbers

/-! ### Keywords -/

/-- The name of a kind that is typed as its name. -/
def IsKeyword (t : Text) : Prop := ∃ k, (Grammar.standardRule k).reserved = true ∧ k.name = t

namespace Grammar

variable {t : Text}

theorem keyword?_name {k : TokenKind} (h : (standardRule k).reserved = true) :
    standard.keyword? k.name = some k := by
  cases k <;> first
    | exact absurd h (by decide)
    | decide

theorem keyword?_eq_none_iff : standard.keyword? t = none ↔ ¬ IsKeyword t := by
  constructor
  · rintro h ⟨k, hk, rfl⟩
    rw [keyword?_name hk] at h
    cases h
  · intro h
    rcases hw : standard.keyword? t with _ | k
    · rfl
    · exact absurd ⟨k, reserved_of_keyword? hw, name_of_keyword? hw⟩ h

/-- No keyword looks like a number. -/
theorem keyword?_of_startsNumber {c : Char} (h : startsNumber c = true) (run : Text) :
    standard.keyword? (c :: run) = none := by
  have hnames : ∀ k, (standardRule k).reserved = true →
      k.name.head?.any startsNumber = false := by
    intro k
    cases k <;> decide
  refine keyword?_eq_none_iff.2 ?_
  rintro ⟨k, hk, hname⟩
  have hc := hnames k hk
  rw [hname, List.head?_cons, Option.any_some, h] at hc
  cases hc

/-- The last rule that starts on a character is the first one from behind. -/
theorem starting?_eq_find? (g : Grammar) (c : Char) : g.starting? c =
    (g.entries.filterMap fun e => e.2.lexeme.map fun l => (e.1, l, e.2.single)).reverse.find?
      fun e => e.2.1.starts c := by
  rw [starting?, List.getLast?_eq_head?_reverse, ← List.filter_reverse, List.head?_filter]

end Grammar

/-! ### The token at the front of a text -/

/-- What a character starts. The rules are tried from the last to the first. -/
theorem Pending.start?_standard (c : Char) : start? .standard c =
    if c == ')' then some (⟨.closeParen, ⟨(· == ')'), fun _ => true, none, none⟩, [c], none⟩, true)
    else if c == '(' then
      some (⟨.openParen, ⟨(· == '('), fun _ => true, none, none⟩, [c], none⟩, true)
    else if c == '\x7b' then
      some (⟨.parameter, .delimited (· == '\x7b') (.closing '\x7d'), [], some '\x7d'⟩, false)
    else if isQuote c then some (⟨.string, .delimited isQuote .matching, [], some c⟩, false)
    else if startsNumber c then
      some (⟨.number, ⟨startsNumber, (!continuesNumber ·), none, some isNumeral⟩, [c], none⟩, false)
    else if startsPath c then
      some (⟨.property, ⟨startsPath, (!continuesPath ·), none, none⟩, [c], none⟩, false)
    else if isSymbol c then
      some (⟨.unknown, ⟨isSymbol, fun d => d == '-' || !isSymbol d, none, none⟩, [c], none⟩, false)
    else none := by
  have hrules : (Grammar.standard.entries.filterMap fun e =>
      e.2.lexeme.map fun l => (e.1, l, e.2.single)).reverse =
      [.closeParen, .openParen, .parameter, .string, .number, .property, .unknown].filterMap
        fun k => (Grammar.standardRule k).lexeme.map fun l =>
          (k, l, (Grammar.standardRule k).single) := rfl
  rw [start?, Grammar.starting?_eq_find?, hrules]
  simp only [List.filterMap, Grammar.standardRule, Grammar.parenthesis, Option.map_some, List.find?,
    Lexeme.delimited]
  cases c == ')'
  case true => rfl
  cases c == '('
  case true => rfl
  cases c == '\x7b'
  case true => rfl
  cases isQuote c
  case true => rfl
  cases startsNumber c
  case true => rfl
  cases startsPath c
  case true => rfl
  cases isSymbol c <;> rfl

/-- What an operator goes on with. -/
def CharClass.continuesSymbols (c : Char) : Bool := isSymbol c && c != '-'

namespace Token

/-- A run of characters that is a keyword, or else a token of the given kind. -/
def word (kind : TokenKind) (run : Text) : Token :=
  ⟨(Grammar.standard.keyword? run).getD kind, run, none⟩

/-- A run of characters that starts like a number. -/
def numeric (run : Text) : Token := word (if isNumeral run then .number else .unknown) run

/-- A token without delimiters goes on as long as its characters do. -/
theorem scan_run {g : Grammar} {k : TokenKind} {l : Lexeme} {c : Char} {p : Char → Bool}
    (h : Pending.start? g c = some (⟨k, l, [c], none⟩, false)) (hp : ∀ d, l.stops d = !p d)
    (t : Text) : scan g (c :: t) =
      Pending.token g ⟨k, l, c :: t.takeWhile p, none⟩ :: scan g (t.dropWhile p) := by
  have hstops : (fun d => !l.stops d) = p := by
    funext d
    simp [hp]
  rw [scan_cons, h, ← hstops]
  rfl

/-- The tokens of a text by its first character. -/
theorem scan_standard_cons (c : Char) (t : Text) : scan .standard (c :: t) =
    if c == ')' then word .closeParen [c] :: scan .standard t
    else if c == '(' then word .openParen [c] :: scan .standard t
    else if c == '\x7b' then
      ⟨.parameter, t.takeWhile (· != '\x7d'), none⟩ ::
        scan .standard (t.dropWhile (· != '\x7d')).tail
    else if isQuote c then
      ⟨.string, t.takeWhile (· != c), some c⟩ :: scan .standard (t.dropWhile (· != c)).tail
    else if startsNumber c then
      numeric (c :: t.takeWhile continuesNumber) :: scan .standard (t.dropWhile continuesNumber)
    else if startsPath c then
      word .property (c :: t.takeWhile continuesPath) :: scan .standard (t.dropWhile continuesPath)
    else if isSymbol c then
      word .unknown (c :: t.takeWhile continuesSymbols) ::
        scan .standard (t.dropWhile continuesSymbols)
    else scan .standard t := by
  have hstart := Pending.start?_standard c
  split_ifs at hstart ⊢
  · rw [scan_cons, hstart]
    rfl
  · rw [scan_cons, hstart]
    rfl
  · rw [scan_cons, hstart]
    rfl
  · rw [scan_cons, hstart]
    rfl
  · exact scan_run hstart (fun _ => rfl) t
  · exact scan_run hstart (fun _ => rfl) t
  · refine scan_run hstart (fun d => ?_) t
    simp [continuesSymbols, Bool.or_comm, bne]
  · rw [scan_cons, hstart]

/-- The tokens that can be read: strings and parameters, parentheses, keywords, numbers, paths that
are no keywords, and what is unknown, be it a failed number or symbols that are no keyword. -/
inductive Readable : Token → Prop
  | string {q : Char} {v : Text} : isQuote q = true → q ∉ v → Readable ⟨.string, v, some q⟩
  | parameter {v : Text} : '\x7d' ∉ v → Readable ⟨.parameter, v, none⟩
  | openParen : Readable ⟨.openParen, ['('], none⟩
  | closeParen : Readable ⟨.closeParen, [')'], none⟩
  | keyword {k : TokenKind} : (Grammar.standardRule k).reserved = true →
      Readable ⟨k, k.name, none⟩
  | number {v : Text} : Numeral v → Readable ⟨.number, v, none⟩
  | property {v : Text} : isPath v = true → ¬ IsKeyword v → Readable ⟨.property, v, none⟩
  | badNumber {c : Char} {run : Text} : startsNumber c = true →
      (∀ d ∈ run, continuesNumber d = true) → ¬ Numeral (c :: run) →
      Readable ⟨.unknown, c :: run, none⟩
  | symbols {v : Text} : v ≠ [] → (∀ d ∈ v, isSymbol d = true ∧ d ≠ '-') → ¬ IsKeyword v →
      Readable ⟨.unknown, v, none⟩

section

variable {token : Token} {t v : Text} {c : Char} {k : TokenKind}

/-! ### Whatever is read is readable -/

theorem readable_word (h : ¬ IsKeyword v → Readable ⟨k, v, none⟩) : (word k v).Readable := by
  unfold word
  rcases hw : Grammar.standard.keyword? v with _ | k'
  · exact h (Grammar.keyword?_eq_none_iff.1 hw)
  · rw [← Grammar.name_of_keyword? hw]
    exact .keyword (Grammar.reserved_of_keyword? hw)

theorem readable_numeric {run : Text} (hc : startsNumber c = true)
    (hrun : ∀ d ∈ run, continuesNumber d = true) : (numeric (c :: run)).Readable := by
  refine readable_word fun _ => ?_
  split_ifs with h
  · exact .number (isNumeral_iff.1 h)
  · exact .badNumber hc hrun (mt isNumeral_iff.2 h)

/-- A character is skipped, or a readable token starts on it. -/
theorem scan_cons_readable (c : Char) (t : Text) : scan .standard (c :: t) = scan .standard t ∨
    ∃ token rest, token.Readable ∧ rest.length ≤ t.length ∧
      scan .standard (c :: t) = token :: scan .standard rest := by
  have hshort : ∀ p : Char → Bool, (t.dropWhile p).length ≤ t.length := fun p =>
    (List.dropWhile_suffix p).length_le
  have hbody : ∀ q : Char, q ∉ t.takeWhile (· != q) ∧
      (t.dropWhile (· != q)).tail.length ≤ t.length := by
    intro q
    refine ⟨fun hq => by simpa using List.mem_takeWhile_imp hq, ?_⟩
    have := hshort (· != q)
    rw [List.length_tail]
    omega
  rw [scan_standard_cons]
  split_ifs with hclose hopen hbrace hquote hnumber hpath hsymbol
  · cases beq_iff_eq.1 hclose
    exact .inr ⟨_, _, readable_word fun _ => .closeParen, le_rfl, rfl⟩
  · cases beq_iff_eq.1 hopen
    exact .inr ⟨_, _, readable_word fun _ => .openParen, le_rfl, rfl⟩
  · exact .inr ⟨_, _, .parameter (hbody _).1, (hbody _).2, rfl⟩
  · exact .inr ⟨_, _, .string hquote (hbody c).1, (hbody c).2, rfl⟩
  · exact .inr ⟨_, _, readable_numeric hnumber fun d hd => List.mem_takeWhile_imp hd,
      hshort _, rfl⟩
  · refine .inr ⟨_, _, readable_word (.property ?_), hshort _, rfl⟩
    simp [isPath, hpath]
  · refine .inr ⟨_, _, readable_word (.symbols (List.cons_ne_nil _ _) ?_), hshort _, rfl⟩
    intro d hd
    rcases List.mem_cons.1 hd with rfl | hd
    · refine ⟨hsymbol, ?_⟩
      rintro rfl
      exact hnumber (by decide)
    · simpa [continuesSymbols] using List.mem_takeWhile_imp hd
  · exact .inl rfl

theorem readable_of_mem_scan : ∀ {t : Text}, token ∈ scan .standard t → token.Readable
  | [], h => by simp [scan, scanFrom] at h
  | c :: t, h => by
    obtain hskip | ⟨first, rest, hfirst, hrest, hscan⟩ := scan_cons_readable c t
    · rw [hskip] at h
      exact readable_of_mem_scan h
    · rw [hscan] at h
      rcases List.mem_cons.1 h with rfl | h
      · exact hfirst
      · exact readable_of_mem_scan h
termination_by t => t.length

/-! ### Whatever is readable is read from its literal -/

theorem scan_delimited {q : Char} (h : q ∉ v) : (v ++ [q]).takeWhile (· != q) = v ∧
    scan .standard ((v ++ [q]).dropWhile (· != q)).tail = [] := by
  have hv : ∀ d ∈ v, (d != q) = true := by
    intro d hd
    rw [bne_iff_ne]
    rintro rfl
    exact h hd
  rw [List.takeWhile_append_of_pos hv, List.dropWhile_append_of_pos hv]
  simp [scan, scanFrom]

theorem scan_of_all {p : Char → Bool} (h : ∀ d ∈ t, p d = true) :
    t.takeWhile p = t ∧ scan .standard (t.dropWhile p) = [] := by
  rw [List.takeWhile_eq_self_iff.2 h, List.dropWhile_eq_nil_iff.2 h]
  exact ⟨rfl, rfl⟩

theorem scan_numeric {run : Text} (hc : startsNumber c = true)
    (hrun : ∀ d ∈ run, continuesNumber d = true) : scan .standard (c :: run) =
      [⟨if isNumeral (c :: run) then .number else .unknown, c :: run, none⟩] := by
  have hne : ∀ d, startsNumber d = false → c ≠ d := by
    rintro d hd rfl
    rw [hc] at hd
    cases hd
  have hquote : isQuote c = false := by
    simp [isQuote, hne '\'' (by decide), hne '"' (by decide)]
  obtain ⟨htake, hdrop⟩ := scan_of_all hrun
  rw [scan_standard_cons]
  simp [hne ')' (by decide), hne '(' (by decide), hne '\x7b' (by decide), hquote, hc, htake, hdrop,
    numeric, word, Grammar.keyword?_of_startsNumber hc]

theorem scan_symbols {run : Text} (h : ∀ d ∈ c :: run, isSymbol d = true ∧ d ≠ '-') :
    scan .standard (c :: run) = [word .unknown (c :: run)] := by
  obtain ⟨hc, hminus⟩ := h c List.mem_cons_self
  have hrun : ∀ d ∈ run, continuesSymbols d = true := fun d hd => by
    simpa [continuesSymbols] using h d (List.mem_cons_of_mem c hd)
  obtain ⟨htake, hdrop⟩ := scan_of_all hrun
  have hclass := hc
  simp only [isSymbol, isWord, isBracket, Char.isAlphanum, Bool.not_eq_true', Bool.or_eq_false_iff]
    at hclass
  obtain ⟨⟨⟨-, hquote⟩, ⟨halpha, hdigit⟩, hunderscore⟩, ⟨⟨hopen, hclose⟩, hbrace⟩, -⟩ := hclass
  rw [scan_standard_cons]
  simp [hquote, halpha, hdigit, hunderscore, hopen, hclose, hbrace, hminus, startsNumber,
    startsPath, hc, htake, hdrop]

theorem Readable.scan_literal (h : token.Readable) : scan .standard token.literal = [token] := by
  cases h with
  | @string q v hq hv =>
    obtain ⟨htake, hdrop⟩ := scan_delimited hv
    have hliteral : literal ⟨.string, v, some q⟩ = q :: (v ++ [q]) := rfl
    have hq' := hq
    simp only [isQuote, Bool.or_eq_true, beq_iff_eq] at hq'
    rw [hliteral, scan_standard_cons]
    rcases hq' with rfl | rfl <;> simp [hq, htake, hdrop]
  | @parameter v hv =>
    obtain ⟨htake, hdrop⟩ := scan_delimited hv
    have hliteral : literal ⟨.parameter, v, none⟩ = '\x7b' :: (v ++ ['\x7d']) := rfl
    rw [hliteral, scan_standard_cons]
    simp [htake, hdrop]
  | openParen => decide
  | closeParen => decide
  | keyword hk => exact (endsBefore_keyword hk).1.scan_literal
  | number hv =>
    obtain ⟨c, run, rfl, hc, hrun⟩ := hv.eq_cons
    have h := scan_numeric hc hrun
    rwa [if_pos (isNumeral_iff.2 hv)] at h
  | property hv hw => exact (endsBefore_path hv (Grammar.keyword?_eq_none_iff.2 hw)).scan_literal
  | badNumber hc hrun hv =>
    have h := scan_numeric hc hrun
    rwa [if_neg (mt isNumeral_iff.1 hv)] at h
  | symbols hne hv hw =>
    obtain ⟨c, run, rfl⟩ := List.exists_cons_of_ne_nil hne
    have h := scan_symbols hv
    rwa [word, Grammar.keyword?_eq_none_iff.2 hw] at h

/-- The tokens that are read from any text are the readable ones, and these are the tokens whose
literal is read as that token and nothing else. -/
theorem readable_iff (token : Token) :
    ((∃ t, token ∈ scan .standard t) ↔ token.Readable) ∧
      (token.Readable ↔ scan .standard token.literal = [token]) := by
  have hread : (∃ t, token ∈ scan .standard t) → token.Readable := fun ⟨_, h⟩ =>
    readable_of_mem_scan h
  have hliteral : scan .standard token.literal = [token] → ∃ t, token ∈ scan .standard t :=
    fun h => ⟨token.literal, by simp [h]⟩
  refine ⟨⟨hread, fun h => hliteral h.scan_literal⟩, Readable.scan_literal, ?_⟩
  exact fun h => hread (hliteral h)

end

end Token

end Typeahead
