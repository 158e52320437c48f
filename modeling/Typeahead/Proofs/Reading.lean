import Mathlib.Data.List.Induction
import Typeahead.Proofs.Segments
import Typeahead.Proofs.Trimming

/-!
# Reading a text in pieces

Reading a text leaves tokens that are finished and perhaps one that is pending, and what follows is
read from there (`Token.reading_append`). A pending token is the end of the text, read afresh
(`Token.reading_pending`).

In the standard grammar a blank ends every token that is not delimited and starts none. So two texts
with a blank between them are read apart, unless the first one ends inside a string or a parameter
(`Token.scan_append_blank_iff`), and there the blanks at the end are part of that token
(`Token.scan_trimEnd_of_leavesOpen`).
-/

namespace Typeahead

namespace Token

variable {g : Grammar}

/-- What a text leaves behind: the tokens finished, and the one that is pending. -/
def reading (g : Grammar) (pending : Option Pending) : Text → List Token × Option Pending
  | [] => ([], pending)
  | c :: rest =>
    ((scanChar g pending c false).1 ++ (reading g (scanChar g pending c false).2 rest).1,
      (reading g (scanChar g pending c false).2 rest).2)

/-- Whether a text ends inside a delimited token. -/
def leavesOpen (g : Grammar) (t : Text) : Bool := (reading g none t).2.any (·.closing.isSome)

/-- Whether a character belongs to no token: what is pending does not take it, and it starts
nothing. -/
def skips (g : Grammar) (pending : Option Pending) (c : Char) : Bool :=
  pending.all (fun p => p.closing.isNone && p.endsAt c) && (Pending.start? g c).isNone

/-- The characters of a text that belong to no token. -/
def skippedFrom (g : Grammar) (pending : Option Pending) : Text → Text
  | [] => []
  | c :: rest =>
    (if skips g pending c then [c] else []) ++ skippedFrom g (scanChar g pending c false).2 rest

/-- The characters of a text that belong to no token. -/
def skipped (g : Grammar) (t : Text) : Text := skippedFrom g none t

theorem scanPlainFrom_eq : ∀ (t : Text) (pending : Option Pending), scanPlainFrom g pending t =
    (reading g pending t).1 ++ (reading g pending t).2.toList.map (·.token g)
  | [], pending => rfl
  | c :: t, pending => by
    simp only [scanPlainFrom, scanPlainFrom_eq t, reading, List.append_assoc]

theorem scan_eq (t : Text) :
    scan g t = (reading g none t).1 ++ (reading g none t).2.toList.map (·.token g) := by
  rw [scan, scanFrom_eq_scanPlainFrom, scanPlainFrom_eq]

theorem reading_append (t : Text) : ∀ (s : Text) (pending : Option Pending),
    reading g pending (s ++ t) =
      ((reading g pending s).1 ++ (reading g (reading g pending s).2 t).1,
        (reading g (reading g pending s).2 t).2)
  | [], pending => rfl
  | c :: s, pending => by
    simp only [List.cons_append, reading, reading_append t s, List.append_assoc]

/-- Behind a text, reading goes on with what it left pending. -/
theorem scan_append_eq (s t : Text) :
    scan g (s ++ t) = (reading g none s).1 ++ scanPlainFrom g (reading g none s).2 t := by
  rw [scan_eq, reading_append, scanPlainFrom_eq, List.append_assoc]

theorem skippedFrom_append (t : Text) : ∀ (s : Text) (pending : Option Pending),
    skippedFrom g pending (s ++ t) =
      skippedFrom g pending s ++ skippedFrom g (reading g pending s).2 t
  | [], pending => rfl
  | c :: s, pending => by
    simp only [List.cons_append, skippedFrom, reading, skippedFrom_append t s, List.append_assoc]

theorem skipped_append (s t : Text) :
    skipped g (s ++ t) = skipped g s ++ skippedFrom g (reading g none s).2 t :=
  skippedFrom_append t s none

/-- A pending token goes on as long as nothing ends it. -/
theorem reading_some : ∀ {run : Text} {p : Pending}, (∀ c ∈ run, p.endsAt c = false) →
    reading g (some p) run = ([], some (p.extend run))
  | [], p, _ => by rw [p.extend_nil]; rfl
  | c :: run, p, h => by
    have hc : scanChar g (some p) c false = ([], some (p.push c)) := by
      simp [scanChar, h c List.mem_cons_self]
    have hrun : ∀ d ∈ run, (p.push c).endsAt d = false := fun d hd =>
      h d (List.mem_cons_of_mem c hd)
    rw [reading, hc, reading_some hrun, p.extend_push]
    rfl

theorem reading_of_start? {c : Char} {p : Pending} (hs : Pending.start? g c = some (p, false))
    {run : Text} (hr : ∀ d ∈ run, p.endsAt d = false) :
    reading g none (c :: run) = ([], some (p.extend run)) := by
  have hc : scanChar g none c false = ([], some p) := by simp [scanChar, scanFresh, hs]
  rw [reading, hc, reading_some hr]
  rfl

/-- A character that ends what is pending, but is no closing delimiter, is read afresh. -/
theorem reading_some_cons_of_endsAt {p : Pending} {c : Char} (hc : p.closing = none)
    (he : p.endsAt c = true) (t : Text) : reading g (some p) (c :: t) =
      (p.token g :: (reading g none (c :: t)).1, (reading g none (c :: t)).2) := by
  have hchar : scanChar g (some p) c false =
      (p.token g :: (scanChar g none c false).1, (scanChar g none c false).2) := by
    simp [scanChar, he, hc]
  rw [reading, reading, hchar]
  rfl

theorem reading_none_of_start? {c : Char} (h : Pending.start? g c = none) (t : Text) :
    reading g none (c :: t) = reading g none t := by
  have hc : scanChar g none c false = ([], none) := by simp [scanChar, scanFresh, h]
  rw [reading, hc]
  rfl

theorem scanFresh_pending {c : Char} {p : Pending} (h : (scanFresh g c false).2 = some p) :
    Pending.start? g c = some (p, false) := by
  unfold scanFresh at h
  rcases hs : Pending.start? g c with _ | ⟨q, _ | _⟩ <;> simp_all

/-- What is pending was started by a character of the text and has taken all characters after
it. -/
theorem reading_pending {t : Text} {p : Pending} (h : (reading g none t).2 = some p) :
    ∃ s c run p₀, t = s ++ c :: run ∧ Pending.start? g c = some (p₀, false) ∧
      p = p₀.extend run ∧ ∀ d ∈ run, p₀.endsAt d = false := by
  induction t using List.reverseRecOn generalizing p with
  | nil => simp [reading] at h
  | append_singleton t c ih =>
    -- The last character starts the pending token or is added to the one pending before it.
    have hstart : (scanFresh g c false).2 = some p → ∃ s c' run p₀, t ++ [c] = s ++ c' :: run ∧
        Pending.start? g c' = some (p₀, false) ∧ p = p₀.extend run ∧
          ∀ d ∈ run, p₀.endsAt d = false := fun hf =>
      ⟨t, c, [], p, rfl, scanFresh_pending hf, p.extend_nil.symm, by simp⟩
    rw [reading_append] at h
    simp only [reading] at h
    rcases hq : (reading g none t).2 with _ | q
    · rw [hq] at h
      exact hstart h
    · rw [hq] at h
      simp only [scanChar] at h
      split_ifs at h with hend hclose
      · exact hstart h
      · obtain ⟨s, c', run, p₀, rfl, hs, rfl, hrun⟩ := ih hq
        cases h
        refine ⟨s, c', run ++ [c], p₀, by simp, hs, by simp [Pending.extend, Pending.push], ?_⟩
        intro d hd
        rcases List.mem_append.1 hd with hd | hd
        · exact hrun d hd
        · cases List.mem_singleton.1 hd
          simpa [Pending.endsAt, Pending.extend] using hend

end Token

namespace Pending

/-- The closing delimiters of the standard grammar are no blanks, and a token without one ends at
any blank. -/
theorem endsAt_blank {c : Char} {p : Pending} {single : Bool}
    (h : start? .standard c = some (p, single)) {w : Char} (hw : Text.isBlank w = true) :
    p.endsAt w = p.closing.isNone := by
  cases opens_of_start? h with
  | plain _ _ _ hstop _ _ => exact hstop w hw
  | string hc =>
    simp only [endsAt, Option.isNone_some, beq_eq_false_iff_ne]
    rintro rfl
    simp only [CharClass.isQuote, Bool.or_eq_true, beq_iff_eq] at hc
    rcases hc with rfl | rfl <;> exact absurd hw (by decide)
  | parameter _ =>
    simp only [endsAt, Option.isNone_some, beq_eq_false_iff_ne]
    rintro rfl
    exact absurd hw (by decide)

theorem start?_blank {w : Char} (hw : Text.isBlank w = true) : start? .standard w = none := by
  rcases h : start? .standard w with _ | ⟨p, single⟩
  · rfl
  · cases opens_of_start? h with
    | plain _ _ _ _ hb _ => rw [hb] at hw; cases hw
    | string hc =>
      simp only [CharClass.isQuote, Bool.or_eq_true, beq_iff_eq] at hc
      rcases hc with rfl | rfl <;> exact absurd hw (by decide)
    | parameter hc => subst hc; exact absurd hw (by decide)

end Pending

namespace Token

theorem endsAt_blank_of_reading {t : Text} {p : Pending}
    (h : (reading .standard none t).2 = some p) {w : Char} (hw : Text.isBlank w = true) :
    p.endsAt w = p.closing.isNone := by
  obtain ⟨_, c, run, p₀, -, hs, rfl, -⟩ := reading_pending h
  exact Pending.endsAt_blank hs hw

theorem reading_cons_of_blank {w : Char} (hw : Text.isBlank w = true) (t : Text) :
    reading .standard none (w :: t) = reading .standard none t :=
  reading_none_of_start? (Pending.start?_blank hw) t

theorem reading_trimStart : ∀ t : Text,
    reading .standard none (Text.trimStart t) = reading .standard none t
  | [] => rfl
  | c :: t => by
    cases hc : Text.isBlank c
    · rw [Text.trimStart_cons_of_not_blank hc]
    · rw [Text.trimStart_cons_of_blank hc, reading_cons_of_blank hc, reading_trimStart t]

theorem reading_of_blank {t : Text} (h : ∀ c ∈ t, Text.isBlank c = true) :
    reading .standard none t = ([], none) := by
  rw [← reading_trimStart, Text.trimStart, List.dropWhile_eq_nil_iff.2 h]
  rfl

/-- Behind a blank, reading starts anew. -/
theorem reading_append_blank {s : Text} (hs : leavesOpen .standard s = false) {w : Char}
    (hw : Text.isBlank w = true) (t : Text) : reading .standard none (s ++ w :: t) =
      (scan .standard s ++ (reading .standard none t).1, (reading .standard none t).2) := by
  rw [reading_append, scan_eq]
  rcases hp : (reading .standard none s).2 with _ | p
  · simp [reading_cons_of_blank hw]
  · have hc : p.closing = none := by simpa [leavesOpen, hp] using hs
    have he : p.endsAt w = true := by rw [endsAt_blank_of_reading hp hw, hc]; rfl
    rw [reading_some_cons_of_endsAt hc he, reading_cons_of_blank hw]
    simp

/-- A blank separates, but for the inside of a string or a parameter. -/
theorem scan_append_blank {s : Text} (hs : leavesOpen .standard s = false) {w : Char}
    (hw : Text.isBlank w = true) (t : Text) :
    scan .standard (s ++ w :: t) = scan .standard s ++ scan .standard t := by
  rw [scan_eq (s ++ w :: t), reading_append_blank hs hw, scan_eq t, List.append_assoc]

theorem leavesOpen_append_blank {s : Text} (hs : leavesOpen .standard s = false) {w : Char}
    (hw : Text.isBlank w = true) (t : Text) :
    leavesOpen .standard (s ++ w :: t) = leavesOpen .standard t := by
  rw [leavesOpen, reading_append_blank hs hw, leavesOpen]

theorem scan_trimStart (t : Text) :
    scan .standard (Text.trimStart t) = scan .standard t := by
  rw [scan_eq, reading_trimStart, ← scan_eq]

theorem scan_append_blanks {s blanks : Text} (hs : leavesOpen .standard s = false)
    (hb : ∀ c ∈ blanks, Text.isBlank c = true) :
    leavesOpen .standard (s ++ blanks) = false ∧
      scan .standard (s ++ blanks) = scan .standard s := by
  rcases blanks with _ | ⟨w, blanks⟩
  · simp [hs]
  · have hw := hb w List.mem_cons_self
    have hrest := reading_of_blank fun c hc => hb c (List.mem_cons_of_mem w hc)
    rw [leavesOpen_append_blank hs hw, scan_append_blank hs hw, scan_eq blanks, leavesOpen, hrest]
    simp

theorem exists_pending_of_leavesOpen {t : Text} (h : leavesOpen g t = true) :
    ∃ p, (reading g none t).2 = some p ∧ p.closing.isSome = true :=
  Option.any_eq_true _ _ |>.1 h

/-- A blank separates what stands before it from what stands behind it if and only if no string or
parameter is open there. -/
theorem scan_append_blank_iff {w : Char} (hw : Text.isBlank w = true) (s t : Text) :
    scan .standard (s ++ w :: t) = scan .standard s ++ scan .standard t ↔
      leavesOpen .standard s = false := by
  refine ⟨fun h => ?_, fun h => scan_append_blank h hw t⟩
  by_contra hopen
  obtain ⟨p, hp, hc⟩ := exists_pending_of_leavesOpen (Bool.of_not_eq_false hopen)
  have hend : p.endsAt w = false := by
    rw [endsAt_blank_of_reading hp hw, ← Option.not_isSome, hc]
    rfl
  -- The open token takes the blank, so its value is longer than at the end of the first text.
  rw [scan_append_eq, hp, scanPlainFrom_some, List.takeWhile_cons_of_pos (by simp [hend]),
    scan_eq s, hp, List.append_assoc, List.append_cancel_left_eq] at h
  have hvalue := congrArg Token.value (List.head_eq_of_cons_eq h)
  simp [Pending.extend, Pending.token] at hvalue

theorem scan_append_blank_iff_ideographic :
    let s : Text := ['\'', '(', ' ', '\'', '<', '-', '.', '1']
    let t : Text := ['=', '\x7b', 'p']
    Text.isBlank '\u3000' = true ∧ leavesOpen .standard s = false ∧
      scan .standard (s ++ '\u3000' :: t) = scan .standard s ++ scan .standard t := by
  intro s t
  exact ⟨by decide, by decide, (scan_append_blank_iff (by decide) s t).2 (by decide)⟩

/-- Inside a string or a parameter blanks are read like anything else. -/
theorem reading_append_blanks {s blanks : Text} {p : Pending}
    (hp : (reading .standard none s).2 = some p) (hc : p.closing.isSome = true)
    (hb : ∀ c ∈ blanks, Text.isBlank c = true) : reading .standard none (s ++ blanks) =
      ((reading .standard none s).1, some (p.extend blanks)) := by
  have hrun : ∀ c ∈ blanks, p.endsAt c = false := by
    intro c hm
    rw [endsAt_blank_of_reading hp (hb c hm), ← Option.not_isSome, hc]
    rfl
  rw [reading_append, hp, reading_some hrun, List.append_nil]

theorem leavesOpen_trimEnd (t : Text) :
    leavesOpen .standard (Text.trimEnd t) = leavesOpen .standard t := by
  obtain ⟨blanks, ht, hb⟩ := Text.eq_trimEnd_append t
  conv_rhs => rw [ht]
  cases h : leavesOpen .standard (Text.trimEnd t)
  · rw [(scan_append_blanks h hb).1]
  · obtain ⟨p, hp, hc⟩ := exists_pending_of_leavesOpen h
    rw [leavesOpen, reading_append_blanks hp hc hb]
    exact hc.symm

theorem scan_trimEnd {t : Text} (h : leavesOpen .standard t = false) :
    scan .standard (Text.trimEnd t) = scan .standard t := by
  obtain ⟨blanks, ht, hb⟩ := Text.eq_trimEnd_append t
  rw [← leavesOpen_trimEnd] at h
  conv_rhs => rw [ht]
  rw [(scan_append_blanks h hb).2]

/-- A blank at the end leaves nothing pending, but for a string or a parameter. -/
theorem reading_of_endsBlank {t : Text} (h : leavesOpen .standard t = false)
    (hend : Text.endsBlank t = true) : reading .standard none t = (scan .standard t, none) := by
  obtain ⟨blanks, ht, hb⟩ := Text.eq_trimEnd_append t
  rcases blanks with _ | ⟨w, blanks⟩
  · rw [ht, List.append_nil, Text.endsBlank_trimEnd] at hend
    cases hend
  · have hscan := scan_trimEnd h
    rw [← leavesOpen_trimEnd] at h
    have hrest := reading_of_blank fun c hc => hb c (List.mem_cons_of_mem w hc)
    conv_lhs => rw [ht]
    rw [reading_append_blank h (hb w List.mem_cons_self), hrest, hscan, List.append_nil]

/-- Trimming a text that ends inside a string or a parameter trims the value of its last token. -/
theorem scan_trimEnd_of_leavesOpen {t : Text} (h : leavesOpen .standard t = true) :
    ∃ init last, scan .standard t = init ++ [last] ∧ scan .standard (Text.trimEnd t) =
      init ++ [{ last with value := Text.trimEnd last.value }] := by
  obtain ⟨blanks, ht, hb⟩ := Text.eq_trimEnd_append t
  rw [← leavesOpen_trimEnd] at h
  obtain ⟨p, hp, hc⟩ := exists_pending_of_leavesOpen h
  refine ⟨(reading .standard none (Text.trimEnd t)).1, (p.extend blanks).token .standard, ?_, ?_⟩
  · conv_lhs => rw [ht]
    rw [scan_eq, reading_append_blanks hp hc hb]
    rfl
  · rw [scan_eq, hp]
    -- The body of the token is the end of the trimmed text, so it does not end blank.
    obtain ⟨s, c, run, p₀, htext, hstart, rfl, -⟩ := reading_pending hp
    have hvalue : Text.trimEnd (run ++ blanks) = run := by
      have hend := Text.endsBlank_trimEnd t
      rw [Text.trimEnd_append, if_pos (Text.trimEnd_eq_nil_iff.2 hb), Text.trimEnd_eq_self_iff]
      rcases run with _ | ⟨d, run⟩
      · rfl
      · rwa [htext, ← List.singleton_append, ← List.append_assoc,
          Text.endsBlank_append (List.cons_ne_nil d run)] at hend
    cases opens_of_start? hstart with
    | plain => simp [Pending.extend] at hc
    | string | parameter => simp [Pending.extend, Pending.token, Lexeme.delimited, hvalue]

theorem leavesOpen_trimStart (t : Text) :
    leavesOpen .standard (Text.trimStart t) = leavesOpen .standard t := by
  rw [leavesOpen, reading_trimStart, leavesOpen]

theorem leavesOpen_trim (t : Text) : leavesOpen .standard (Text.trim t) = leavesOpen .standard t := by
  rw [Text.trim, leavesOpen_trimEnd, leavesOpen_trimStart]

theorem scan_trim {t : Text} (h : leavesOpen .standard t = false) :
    scan .standard (Text.trim t) = scan .standard t := by
  rw [Text.trim, scan_trimEnd (by rwa [leavesOpen_trimStart]), scan_trimStart]

theorem mem_skipped_of_trimStart {c : Char} : ∀ {t : Text},
    c ∈ skipped .standard (Text.trimStart t) → c ∈ skipped .standard t
  | [], h => h
  | d :: t, h => by
    cases hd : Text.isBlank d
    · rwa [Text.trimStart_cons_of_not_blank hd] at h
    · rw [Text.trimStart_cons_of_blank hd] at h
      have ih := mem_skipped_of_trimStart h
      have hnext : scanChar .standard none d false = ([], none) := by
        simp [scanChar, scanFresh, Pending.start?_blank hd]
      rw [skipped, skippedFrom, hnext]
      exact List.mem_append_right _ ih

theorem scan_of_blank {t : Text} (h : ∀ c ∈ t, Text.isBlank c = true) : scan .standard t = [] := by
  rw [scan_eq, reading_of_blank h]
  rfl

end Token

end Typeahead
