import Mathlib.Data.List.TakeWhile
import Mathlib.Tactic.SplitIfs
import Typeahead.Token.Scan

/-!
# How a text falls into tokens

A token that has been started takes every character up to the one that ends it, so a text is read
token by token instead of character by character (`Token.scan_cons`). That holds in every grammar.

In the standard grammar what a token takes is its literal, so the text is made of literals and of
skipped characters, blanks and stray closing braces, in order (`Segmented`, `segmented_scan`). Only
the last token may lack its closing delimiter.
-/

namespace Typeahead

namespace Pending

/-- The token with a run of characters added to its text. -/
def extend (p : Pending) (run : Text) : Pending := { p with value := p.value ++ run }

/-- What is left of a text after the token has taken its part, a closing delimiter included. -/
def rest (p : Pending) (t : Text) : Text :=
  if p.closing.isSome then (t.dropWhile (!p.endsAt ·)).tail else t.dropWhile (!p.endsAt ·)

theorem extend_nil (p : Pending) : p.extend [] = p := by
  simp [extend]

theorem extend_push (p : Pending) (c : Char) (run : Text) :
    (p.push c).extend run = p.extend (c :: run) := by
  simp [extend, push]

theorem rest_cons_of_not_endsAt {p : Pending} {c : Char} (h : p.endsAt c = false) (t : Text) :
    p.rest (c :: t) = p.rest t := by
  simp [rest, h]

theorem rest_length_le (p : Pending) (t : Text) : (p.rest t).length ≤ t.length := by
  have h := (List.dropWhile_suffix (!p.endsAt ·) (l := t)).length_le
  unfold rest
  split_ifs
  · rw [List.length_tail]
    omega
  · exact h

end Pending

namespace Token

variable {g : Grammar}

theorem scanChar_last (pending : Option Pending) (c : Char) :
    scanChar g pending c true = ((scanChar g pending c false).1 ++
      (scanChar g pending c false).2.toList.map (·.token g), none) := by
  have hfresh : scanFresh g c true = ((scanFresh g c false).1 ++
      (scanFresh g c false).2.toList.map (·.token g), none) := by
    unfold scanFresh
    rcases Pending.start? g c with _ | ⟨p, _ | _⟩ <;> rfl
  rcases pending with _ | p
  · exact hfresh
  · simp only [scanChar, hfresh]
    split_ifs <;> simp

/-- To finish the last token as soon as its last character is read changes nothing. -/
theorem scanFrom_eq_scanPlainFrom : ∀ (t : Text) (pending : Option Pending),
    scanFrom g pending t = scanPlainFrom g pending t
  | [], pending => rfl
  | [c], pending => by simp [scanFrom, scanPlainFrom, scanChar_last]
  | c :: d :: t, pending => by
    rw [scanFrom, scanPlainFrom, List.isEmpty_cons]
    simp only [scanFrom_eq_scanPlainFrom (d :: t)]

/-- A token that is being read takes all characters before the one that ends it. -/
theorem scanPlainFrom_some : ∀ (t : Text) (p : Pending), scanPlainFrom g (some p) t =
    (p.extend (t.takeWhile (!p.endsAt ·))).token g :: scanPlainFrom g none (p.rest t)
  | [], p => by
    have hr : p.rest [] = [] := by simp [Pending.rest]
    rw [hr, List.takeWhile_nil, p.extend_nil]
    rfl
  | c :: t, p => by
    rw [scanPlainFrom, scanChar]
    cases h : p.endsAt c
    · have ih := scanPlainFrom_some t (p.push c)
      rw [p.extend_push] at ih
      rw [Pending.rest_cons_of_not_endsAt h, List.takeWhile_cons_of_pos (by simp [h])]
      exact ih
    · rw [List.takeWhile_cons_of_neg (by simp [h]), p.extend_nil]
      cases hc : p.closing <;> simp [Pending.rest, h, hc, scanPlainFrom, scanChar]

/-- The tokens of a text, by what its first character starts. -/
theorem scan_cons (c : Char) (t : Text) : scan g (c :: t) = match Pending.start? g c with
    | none => scan g t
    | some (p, true) => p.token g :: scan g t
    | some (p, false) =>
      (p.extend (t.takeWhile (!p.endsAt ·))).token g :: scan g (p.rest t) := by
  simp only [scan, scanFrom_eq_scanPlainFrom]
  rw [scanPlainFrom, scanChar, scanFresh]
  rcases Pending.start? g c with _ | ⟨p, _ | _⟩
  · rfl
  · exact scanPlainFrom_some t p
  · rfl

end Token

namespace CharClass

/-- The characters of words lie between the blanks of ASCII and all others. -/
theorem isBlank_of_isWord {c : Char} (h : isWord c = true) : Text.isBlank c = false := by
  have hw : 48 ≤ c.toNat ∧ c.toNat ≤ 122 := by
    have hupper : c.isUpper = decide ('A'.val ≤ c.val ∧ c.val ≤ 'Z'.val) := rfl
    have hlower : c.isLower = (decide ('a'.val ≤ c.val) && decide (c.val ≤ 'z'.val)) := rfl
    have halpha : c.isAlpha = (c.isUpper || c.isLower) := rfl
    simp only [isWord, Char.isAlphanum, halpha, hupper, hlower, Char.isDigit, Bool.or_eq_true,
      Bool.and_eq_true, decide_eq_true_eq, ge_iff_le, UInt32.le_iff_toNat_le, beq_iff_eq] at h
    rcases h with ((h | h) | h) | rfl
    · exact ⟨Nat.le_trans (by decide) h.1, Nat.le_trans h.2 (by decide)⟩
    · exact ⟨Nat.le_trans (by decide) h.1, Nat.le_trans h.2 (by decide)⟩
    · exact ⟨Nat.le_trans (by decide) h.1, Nat.le_trans h.2 (by decide)⟩
    · decide
  simp only [Text.isBlank, Text.blankRanges, CodeRanges.has, List.any_cons, List.any_nil,
    Bool.or_false, Bool.or_eq_false_iff, Bool.and_eq_false_iff, decide_eq_false_iff_not]
  omega

theorem isBlank_of_continuesPath {c : Char} (h : continuesPath c = true) :
    Text.isBlank c = false := by
  simp only [continuesPath, Bool.or_eq_true, beq_iff_eq] at h
  rcases h with h | rfl
  · exact isBlank_of_isWord h
  · decide

theorem isBlank_of_continuesNumber {c : Char} (h : continuesNumber c = true) :
    Text.isBlank c = false := by
  simp only [continuesNumber, Bool.or_eq_true, beq_iff_eq] at h
  rcases h with (h | rfl) | rfl
  · exact isBlank_of_isWord (by simp [isWord, Char.isAlphanum, h])
  · decide
  · decide

theorem isBlank_of_isSymbol {c : Char} (h : isSymbol c = true) : Text.isBlank c = false := by
  simp only [isSymbol, Bool.not_eq_true', Bool.or_eq_false_iff] at h
  exact h.1.1.1

end CharClass

namespace Grammar

variable {g : Grammar} {c : Char}

theorem starting?_eq_some {e : TokenKind × Lexeme × Bool} (h : g.starting? c = some e) :
    (∃ r, (e.1, r) ∈ g.entries ∧ r.lexeme = some e.2.1 ∧ r.single = e.2.2) ∧
      e.2.1.starts c = true := by
  have hm := List.mem_of_getLast? h
  rw [List.mem_filter, List.mem_filterMap] at hm
  obtain ⟨⟨⟨k, r⟩, hr, he⟩, hs⟩ := hm
  obtain ⟨l, hl, rfl⟩ := Option.map_eq_some_iff.1 he
  exact ⟨⟨r, hr, hl, rfl⟩, hs⟩

theorem starting?_eq_none (h : g.starting? c = none) {k : TokenKind} {r : Rule} {l : Lexeme}
    (hr : (k, r) ∈ g.entries) (hl : r.lexeme = some l) : l.starts c = false := by
  rw [starting?, List.getLast?_eq_none_iff, List.filter_eq_nil_iff] at h
  have hm : (k, l, r.single) ∈ g.entries.filterMap fun e =>
      e.2.lexeme.map fun l => (e.1, l, e.2.single) :=
    List.mem_filterMap.2 ⟨(k, r), hr, by simp [hl]⟩
  simpa using h _ hm

theorem mem_entries_standard {k : TokenKind} {r : Rule} :
    (k, r) ∈ standard.entries ↔ r = standardRule k := by
  unfold standard
  simp only [List.mem_map, Prod.mk.injEq]
  constructor
  · rintro ⟨_, -, rfl, rfl⟩
    rfl
  · rintro rfl
    exact ⟨k, k.mem_all, rfl, rfl⟩

theorem reserved_of_keyword? {t : Text} {k : TokenKind} (h : standard.keyword? t = some k) :
    (standardRule k).reserved = true := by
  have hm := List.mem_of_getLast? h
  rw [List.mem_map] at hm
  obtain ⟨⟨k', r⟩, hr, rfl⟩ := hm
  rw [List.mem_filter, mem_entries_standard] at hr
  obtain ⟨rfl, hr⟩ := hr
  simp only [Bool.and_eq_true] at hr
  exact hr.1

end Grammar

open CharClass in
/-- How a character starts a token: as its first character, or as an opening delimiter. -/
inductive Opens (c : Char) : Pending → Bool → Prop
  | plain {k : TokenKind} {l : Lexeme} {single : Bool} : k ≠ .string → k ≠ .parameter →
      l.delimiter = none → (∀ d, Text.isBlank d = true → l.stops d = true) →
      Text.isBlank c = false → c ≠ '\x7d' → Opens c ⟨k, l, [c], none⟩ single
  | string : isQuote c = true →
      Opens c ⟨.string, Lexeme.delimited isQuote .matching, [], some c⟩ false
  | parameter : c = '\x7b' →
      Opens c ⟨.parameter, Lexeme.delimited (· == '\x7b') (.closing '\x7d'), [], some '\x7d'⟩ false

open CharClass in
theorem opens_of_start? {c : Char} {p : Pending} {single : Bool}
    (h : Pending.start? .standard c = some (p, single)) : Opens c p single := by
  obtain ⟨⟨k, l, b⟩, he, hp⟩ := Option.map_eq_some_iff.1 h
  obtain ⟨⟨r, hr, hl, hb⟩, hs⟩ := Grammar.starting?_eq_some he
  rw [Grammar.mem_entries_standard] at hr
  subst hr
  have hstop : ∀ {q : Char → Bool}, (∀ {d}, q d = true → Text.isBlank d = false) →
      ∀ d, Text.isBlank d = true → (!q d) = true := by
    intro q hq d hd
    cases hqd : q d
    · rfl
    · rw [hq hqd] at hd
      cases hd
  simp only at hl hb hs
  cases k <;> cases hl <;> cases hp
  case unknown =>
    refine .plain (by decide) (by decide) rfl (fun d hd => ?_) (isBlank_of_isSymbol hs) ?_
    · simp [hstop isBlank_of_isSymbol d hd]
    · rintro rfl
      revert hs
      decide
  case property =>
    have hw : continuesPath c = true := by
      simp only [startsPath, Bool.or_eq_true] at hs
      rcases hs with hs | hs <;> simp [continuesPath, isWord, Char.isAlphanum, hs]
    refine .plain (by decide) (by decide) rfl (hstop isBlank_of_continuesPath)
      (isBlank_of_continuesPath hw) ?_
    rintro rfl
    revert hs
    decide
  case number =>
    have hw : continuesNumber c = true := by
      simp only [startsNumber, Bool.or_eq_true] at hs
      rcases hs with hs | hs <;> simp [continuesNumber, hs]
    refine .plain (by decide) (by decide) rfl (hstop isBlank_of_continuesNumber)
      (isBlank_of_continuesNumber hw) ?_
    rintro rfl
    revert hs
    decide
  case string => exact hb ▸ .string hs
  case parameter => exact hb ▸ .parameter (beq_iff_eq.1 hs)
  case openParen | closeParen =>
    cases beq_iff_eq.1 hs
    exact .plain (by decide) (by decide) rfl (fun _ _ => rfl) (by decide) (by decide)

open CharClass in
theorem skipped_of_start? {c : Char} (h : Pending.start? .standard c = none) :
    Text.isBlank c = true ∨ c = '\x7d' := by
  have hn := Option.map_eq_none_iff.1 h
  have hs : ∀ {k : TokenKind} {l : Lexeme}, (Grammar.standardRule k).lexeme = some l →
      l.starts c = false :=
    fun hl => Grammar.starting?_eq_none hn (Grammar.mem_entries_standard.2 rfl) hl
  have hsymbol := hs (k := .unknown) rfl
  have hpath := hs (k := .property) rfl
  have hnumber := hs (k := .number) rfl
  have hquote := hs (k := .string) rfl
  have hbrace := hs (k := .parameter) rfl
  have hopen := hs (k := .openParen) rfl
  have hclose := hs (k := .closeParen) rfl
  simp only [isSymbol, isWord, isBracket, startsPath, startsNumber, Lexeme.delimited,
    Char.isAlphanum, Bool.not_eq_false', Bool.or_eq_false_iff, Bool.or_eq_true]
    at hsymbol hpath hnumber hquote hbrace hopen hclose
  rcases hsymbol with ((hb | hq) | hw) | hbr
  · exact .inl hb
  · simp [hquote] at hq
  · simp [hpath, hnumber] at hw
  · exact .inr (by simpa [hopen, hclose, hbrace] using hbr)

/-- A token with one spelling, that neither starts on a skipped character nor ends blank. -/
structure Token.Solid (token : Token) : Prop where
  spellings : token.spellings = [token.literal]
  first : ∃ c rest, token.literal = c :: rest ∧ Text.isBlank c = false ∧ c ≠ '\x7d'
  last : ∃ init d, token.literal = init ++ [d] ∧ Text.isBlank d = false

namespace Pending

variable {k : TokenKind} {c : Char}

/-- A token without delimiters is typed as its text. -/
theorem solid_plain (l : Lexeme) (run : Text) (hs : k ≠ .string) (hp : k ≠ .parameter)
    (hc : c ≠ '\x7d') (hb : ∀ d ∈ c :: run, Text.isBlank d = false) :
    (Pending.token .standard ⟨k, l, c :: run, none⟩).literal = c :: run ∧
      (Pending.token .standard ⟨k, l, c :: run, none⟩).Solid := by
  have hkind : (Pending.token .standard ⟨k, l, c :: run, none⟩).kind ≠ .string ∧
      (Pending.token .standard ⟨k, l, c :: run, none⟩).kind ≠ .parameter := by
    simp only [token, Option.isNone_none, ↓reduceIte]
    rcases hw : Grammar.standard.keyword? (c :: run) with _ | k'
    · simp only [Option.getD_none]
      split_ifs
      · exact ⟨hs, hp⟩
      · exact ⟨by decide, by decide⟩
    · have hr := Grammar.reserved_of_keyword? hw
      simp only [Option.getD_some]
      constructor <;> rintro rfl <;> cases hr
  have hlit : (Pending.token .standard ⟨k, l, c :: run, none⟩).literal = c :: run := by
    unfold Token.literal
    split
    · exact absurd ‹_› hkind.1
    · exact absurd ‹_› hkind.2
    · rfl
  refine ⟨hlit, ⟨?_, ⟨c, run, hlit, hb c List.mem_cons_self, hc⟩, ?_⟩⟩
  · rw [Token.spellings, if_neg fun h => hkind.1 h.1]
  · refine ⟨_, _, hlit.trans (List.dropLast_concat_getLast (List.cons_ne_nil c run)).symm, ?_⟩
    exact hb _ (List.getLast_mem _)

end Pending

/-- A text made of the literals of its tokens, in order, and of skipped characters. The last token
may have been left open. -/
inductive Segmented : Text → List Token → Prop
  | nil : Segmented [] []
  | skip {c : Char} {t : Text} {ts : List Token} : Text.isBlank c = true ∨ c = '\x7d' →
      Segmented t ts → Segmented (c :: t) ts
  | token {token : Token} {t : Text} {ts : List Token} : token.Solid → Segmented t ts →
      Segmented (token.literal ++ t) (token :: ts)
  | unclosed {token : Token} {t : Text} {d : Char} : token.Solid →
      token.kind = .string ∨ token.kind = .parameter → token.literal = t ++ [d] →
      Segmented t [token]

/-- A delimited token takes the text up to its closing delimiter, and all of it if there is none. -/
theorem Segmented.delimited {token : Token} {p : Pending} {c q : Char} {t : Text} {ts : List Token}
    (hq : p.closing = some q) (hs : token.Solid)
    (hk : token.kind = .string ∨ token.kind = .parameter)
    (hl : token.literal = c :: (t.takeWhile (!p.endsAt ·) ++ [q]))
    (hr : Segmented (p.rest t) ts) (hnil : p.rest t = [] → ts = []) :
    Segmented (c :: t) (token :: ts) := by
  have hsplit := List.takeWhile_append_dropWhile (p := (!p.endsAt ·)) (l := t)
  have hrest : p.rest t = (t.dropWhile (!p.endsAt ·)).tail := by simp [Pending.rest, hq]
  rcases hd : t.dropWhile (!p.endsAt ·) with _ | ⟨d, r⟩
  · rw [hd, List.tail_nil] at hrest
    rw [hd, List.append_nil] at hsplit
    rw [hnil hrest]
    exact .unclosed hs hk (by rw [hl, hsplit]; rfl)
  · have hend : p.endsAt d = true := by
      have := List.head_dropWhile_not (!p.endsAt ·) (l := t) (by rw [hd]; simp)
      simpa [hd] using this
    have hdq : d = q := by simpa [Pending.endsAt, hq] using hend
    rw [hd, List.tail_cons] at hrest
    rw [hrest] at hr
    have htext : token.literal ++ r = c :: t := by
      calc token.literal ++ r = c :: (t.takeWhile (!p.endsAt ·) ++ d :: r) := by
            rw [hl, hdq]
            simp
        _ = c :: t := by rw [← hd, hsplit]
    exact htext ▸ .token hs hr

/-- What a token takes from the text behind its first character. -/
theorem Opens.segmented {c : Char} {p : Pending} (h : Opens c p false) {t : Text} {ts : List Token}
    (hr : Segmented (p.rest t) ts) (hnil : p.rest t = [] → ts = []) :
    Segmented (c :: t) ((p.extend (t.takeWhile (!p.endsAt ·))).token .standard :: ts) := by
  cases h with
  | @plain k l _ hs hp hd hstop hb hc =>
    have hrun : ∀ d ∈ c :: t.takeWhile (!l.stops ·), Text.isBlank d = false := by
      intro d hm
      rcases List.mem_cons.1 hm with rfl | hm
      · exact hb
      · have hkeep := List.mem_takeWhile_imp hm
        cases hd : Text.isBlank d
        · rfl
        · rw [hstop d hd] at hkeep
          cases hkeep
    obtain ⟨hlit, hsolid⟩ := Pending.solid_plain l _ hs hp hc hrun
    have := Segmented.token hsolid hr
    rw [hlit] at this
    simpa [Pending.rest, Pending.endsAt, Pending.extend] using this
  | string hc =>
    have hb : Text.isBlank c = false ∧ c ≠ '\x7d' := by
      simp only [CharClass.isQuote, Bool.or_eq_true, beq_iff_eq] at hc
      rcases hc with rfl | rfl <;> decide
    exact .delimited rfl ⟨rfl, ⟨c, _, rfl, hb⟩, ⟨c :: t.takeWhile _, c, rfl, hb.1⟩⟩ (.inl rfl) rfl
      hr hnil
  | parameter hc =>
    subst hc
    exact .delimited rfl ⟨rfl, ⟨_, _, rfl, by decide⟩, ⟨'\x7b' :: t.takeWhile _, _, rfl, by decide⟩⟩
      (.inr rfl) rfl hr hnil

/-- Every text is made of the tokens read from it. -/
theorem segmented_scan : ∀ t : Text, Segmented t (Token.scan .standard t)
  | [] => .nil
  | c :: t => by
    rw [Token.scan_cons]
    rcases hstart : Pending.start? .standard c with _ | ⟨p, _ | _⟩
    · exact .skip (skipped_of_start? hstart) (segmented_scan t)
    · have := p.rest_length_le t
      exact (opens_of_start? hstart).segmented (segmented_scan (p.rest t)) fun h => by rw [h]; rfl
    · cases opens_of_start? hstart with
      | @plain k l _ hs hp _ _ hb hc =>
        obtain ⟨hlit, hsolid⟩ := Pending.solid_plain l [] hs hp hc (by simpa using hb)
        have := Segmented.token hsolid (segmented_scan t)
        rw [hlit] at this
        exact this
termination_by t => t.length

end Typeahead
