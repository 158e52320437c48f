import Typeahead.Proofs.Cutting

/-!
# How a tidy text settles

A text is tidy if only blanks of it belong to no token. Reading a tidy draft commits the tokens of
its text, but for the last one while something can be added to it (`Draft.committed`), and one pass
does all of it (`Draft.process_tidy`). What is left of the text holds at most one token, which tells
the text but for the blanks around it (`Draft.Left.trim_eq`).
-/

namespace Typeahead

open Token

/-- Only blanks of the text belong to no token. -/
def Tidy (t : Text) : Prop := ∀ c ∈ skipped .standard t, Text.isBlank c = true

namespace Tidy

variable {s t u : Text} {ts : List Token}

theorem trimStart (h : Tidy t) : Tidy (Text.trimStart t) := fun c hc =>
  h c (mem_skipped_of_trimStart hc)

theorem of_append (h : Tidy (s ++ t)) : Tidy s := fun c hc =>
  h c (by rw [skipped_append]; exact List.mem_append_left _ hc)

theorem trim (h : Tidy t) : Tidy (Text.trim t) := by
  obtain ⟨more, hmore⟩ := Text.trimEnd_isPrefix (Text.trimStart t)
  exact of_append (hmore.symm ▸ h.trimStart)

theorem of_cut (h : Tidy s) (hcut : Cut s ts u) : Tidy u := fun c hc => h c (hcut.mem_skipped hc)

/-- A brace in front of a text belongs to no token. -/
theorem stuck (h : Tidy t) (hs : Stuck t) : ∃ last q, Text.trimStart t ++ [q] = last.literal ∧
    scan .standard t = [last] ∧ leavesOpen .standard t = true := by
  cases hs with
  | brace ht =>
    have hbrace : '\x7d' ∈ skipped .standard (Text.trimStart t) := by
      rw [ht, skipped, skippedFrom, if_pos (by decide)]
      exact List.mem_cons_self
    exact absurd (h _ (mem_skipped_of_trimStart hbrace)) (by decide)
  | unclosed hl hscan hopen => exact ⟨_, _, hl, hscan, hopen⟩

theorem blank_of_scan_eq_nil (h : Tidy t) (ht : scan .standard t = []) :
    ∀ c ∈ t, Text.isBlank c = true := by
  cases front t with
  | blank hb => exact hb
  | token hs he =>
    rw [← scan_trimStart, hs, he.scan_append] at ht
    cases ht
  | stuck hs =>
    obtain ⟨_, _, -, hscan, -⟩ := h.stuck hs
    rw [ht] at hscan
    cases hscan

end Tidy

/-- What is seen of the first of some tokens that is still in the text; the token may be open. -/
def shown (leftOpen : Bool) : List Token → Text
  | [] => []
  | token :: _ => if leftOpen then Text.trimEnd token.literal.dropLast else token.literal

/-- A tidy text with at most one token is that token, but for the blanks around it. -/
theorem Tidy.trim_eq {t : Text} (h : Tidy t) (hlen : (scan .standard t).length ≤ 1) :
    Text.trim t = shown (leavesOpen .standard t) (scan .standard t) := by
  cases front t with
  | blank hb =>
    rw [Text.trim_eq_nil_of_blank hb, scan_of_blank hb]
    rfl
  | @token token u hs he =>
    have hscan : scan .standard t = token :: scan .standard u := by
      rw [← scan_trimStart, hs, he.scan_append]
    have hu : Tidy u := h.of_cut (.cons hs he .nil)
    have hblank := hu.blank_of_scan_eq_nil (by
      rw [hscan, List.length_cons] at hlen
      exact List.length_eq_zero_iff.1 (by omega))
    have hopen : leavesOpen .standard t = false := by
      rw [← leavesOpen_trimStart, hs, he.leavesOpen_append, leavesOpen, reading_of_blank hblank]
      rfl
    rw [hscan, hopen, ← Text.trim_trimStart, hs, he.solid.trim_literal_append,
      Text.trimEnd_eq_nil_iff.2 hblank, List.append_nil]
    rfl
  | stuck hs =>
    obtain ⟨last, q, hl, hscan, hopen⟩ := h.stuck hs
    rw [hscan, hopen, shown, if_pos rfl, ← hl, List.dropLast_concat]
    rfl

/-! ### What a pass commits -/

theorem Token.scan_ne_nil_of_leavesOpen {t : Text} (h : leavesOpen .standard t = true) :
    scan .standard t ≠ [] := by
  obtain ⟨init, last, hscan, -⟩ := scan_trimEnd_of_leavesOpen h
  rw [hscan]
  simp

theorem Pending.single_of_start? {c : Char} {p : Pending} {single : Bool}
    (h : Pending.start? .standard c = some (p, single)) :
    (Grammar.standardRule p.kind).single = single := by
  obtain ⟨⟨k, l, b⟩, he, hp⟩ := Option.map_eq_some_iff.1 h
  obtain ⟨⟨r, hr, -, hb⟩, -⟩ := Grammar.starting?_eq_some he
  rw [Grammar.mem_entries_standard] at hr
  subst hr
  simp only at hp
  split at hp <;> cases hp <;> exact hb

theorem Pending.single_token {p : Pending} (h : (Grammar.standardRule p.kind).single = false) :
    (Grammar.standardRule (p.token .standard).kind).single = false := by
  have hreserved : ∀ k, (Grammar.standardRule k).reserved = true →
      (Grammar.standardRule k).single = false := by
    intro k
    cases k <;> decide
  have hplain : (Grammar.standardRule
      (if p.lexeme.format.all (· p.value) then p.kind else .unknown)).single = false := by
    split_ifs
    · exact h
    · rfl
  unfold token
  simp only
  by_cases hc : p.closing.isNone = true
  · rw [if_pos hc]
    rcases hw : Grammar.standard.keyword? p.value with _ | k
    · exact hplain
    · exact hreserved k (Grammar.reserved_of_keyword? hw)
  · rw [if_neg hc]
    exact hplain

/-- A token of a single character is never pending. -/
theorem Token.single_of_reading {t : Text} {p : Pending}
    (h : (reading .standard none t).2 = some p) :
    (Grammar.standard.get? (p.token .standard).kind).any (·.single) = false := by
  obtain ⟨_, c, run, p₀, -, hs, rfl, -⟩ := reading_pending h
  rw [Grammar.get?_standard, Option.any_some]
  exact Pending.single_token (show (Grammar.standardRule p₀.kind).single = false from
    Pending.single_of_start? hs)

namespace Draft

variable {t u v z : Text} {force : Bool} {ts us : List Token}

/-- The tokens that reading a tidy text commits: all of them, but for the last one while it is open
or something can be added to it. -/
def committed (force : Bool) (t : Text) : List Token :=
  if leavesOpen .standard t then (scan .standard t).dropLast else due force t

theorem length_scan_le_due (force : Bool) (t : Text) :
    (scan .standard t).length ≤ (due force t).length + 1 := by
  unfold due
  split_ifs
  · omega
  · rw [List.length_dropLast]
    omega

theorem length_left_of_due (h : scan .standard t = due force t ++ us) : us.length ≤ 1 := by
  have hlen := congrArg List.length h
  have := length_scan_le_due force t
  rw [List.length_append] at hlen
  omega

theorem length_left (h : scan .standard t = committed force t ++ us) : us.length ≤ 1 := by
  unfold committed at h
  split_ifs at h
  · have hlen := congrArg List.length h
    rw [List.length_append, List.length_dropLast] at hlen
    omega
  · exact length_left_of_due h

theorem pass_tidy {d : Draft} (h : Tidy d.text) (force : Bool) :
    ∃ u, Cut d.text (committed force d.text) u ∧ d.pass .standard (scan .standard) force =
      ⟨d.tokens ++ committed force d.text,
        if committed force d.text = [] then d.text else Text.trim u⟩ := by
  obtain ⟨ts, u, -, hcut, hstop, hpass⟩ := d.pass_eq_cut force
  have hts : ts = committed force d.text := by
    have hscan := hcut.scan
    unfold committed
    split_ifs with hopen
    · -- The open token cannot be taken off, so exactly the others have been.
      have hone : ∃ last, scan .standard u = [last] := by
        rcases hstop with rfl | hstuck
        · rw [hcut.leavesOpen] at hopen
          have hpos := List.length_pos_iff.2 (scan_ne_nil_of_leavesOpen hopen)
          exact List.length_eq_one_iff.1 (le_antisymm (length_left_of_due hscan) hpos)
        · obtain ⟨last, _, -, hlast, -⟩ := (h.of_cut hcut).stuck hstuck
          exact ⟨last, hlast⟩
      obtain ⟨last, hlast⟩ := hone
      rw [hscan, hlast, List.dropLast_concat]
    · rcases hstop with rfl | hstuck
      · rfl
      · obtain ⟨_, _, -, -, hu⟩ := (h.of_cut hcut).stuck hstuck
        rw [hcut.leavesOpen, hu] at hopen
        exact absurd rfl hopen
  subst hts
  exact ⟨u, hcut, hpass⟩

/-! ### One pass is enough -/

/-- A token that stays behind in a text that leaves nothing open is not complete. -/
theorem isComplete_of_due {last : Token} (h : scan .standard t = due force t ++ [last]) :
    force = false ∧ isComplete .standard t last = false := by
  unfold due at h
  split_ifs at h with hall
  · simp at h
  · rw [Bool.or_eq_true, not_or, Bool.not_eq_true, Bool.not_eq_true] at hall
    rw [h, List.getLast?_concat] at hall
    exact ⟨hall.1, hall.2⟩

theorem committed_trim (hcut : Cut t (committed force t) u) :
    committed false (Text.trim u) = [] := by
  have hlen := length_left hcut.scan
  rcases hopen : leavesOpen .standard u
  · rcases hu : scan .standard u with _ | ⟨last, rest⟩
    · rw [committed, leavesOpen_trim, hopen, if_neg (by decide), due, scan_trim hopen, hu]
      rfl
    · obtain rfl : rest = [] := List.length_eq_zero_iff.1 (by simpa [hu] using hlen)
      have hscan := hcut.scan
      rw [committed, hcut.leavesOpen, hopen, if_neg (by decide), hu] at hscan
      have hsingle := (Bool.or_eq_false_iff.1 (isComplete_of_due hscan).2).1
      have hlast : isComplete .standard (Text.trim u) last = false := by
        rw [isComplete, hsingle, Text.trim, Text.endsBlank_trimEnd]
        rfl
      rw [committed, leavesOpen_trim, hopen, if_neg (by decide), due, scan_trim hopen, hu]
      simp [hlast]
  · obtain ⟨init, last, hu, htrim⟩ := scan_trimEnd_of_leavesOpen hopen
    obtain rfl : init = [] := List.length_eq_zero_iff.1 (by simpa [hu] using hlen)
    rw [committed, leavesOpen_trim, hopen, if_pos rfl, ← Text.trimStart_trimEnd, scan_trimStart,
      htrim]
    rfl

theorem process_of_committed_eq_nil {d : Draft} (h : Tidy d.text)
    (hc : committed false d.text = []) : d.process .standard (scan .standard) false = d := by
  obtain ⟨u, -, hpass⟩ := pass_tidy h false
  rw [hc, List.append_nil, if_pos rfl] at hpass
  rw [process]
  simp only [hpass, dif_pos]

/-- Reading a tidy draft cuts the tokens committed off the text and trims the rest. -/
theorem process_tidy {d : Draft} (h : Tidy d.text) (force : Bool) :
    ∃ u, Cut d.text (committed force d.text) u ∧ d.process .standard (scan .standard) force =
      ⟨d.tokens ++ committed force d.text,
        if committed force d.text = [] then d.text else Text.trim u⟩ := by
  obtain ⟨u, hcut, hpass⟩ := pass_tidy h force
  refine ⟨u, hcut, ?_⟩
  rw [process, hpass]
  by_cases hc : committed force d.text = []
  · simp only [if_pos hc, dif_pos]
  · simp only [if_neg hc]
    split_ifs
    · rfl
    · exact process_of_committed_eq_nil (d := ⟨_, Text.trim u⟩) (h.of_cut hcut).trim
        (committed_trim hcut)

/-- Reading to the end leaves nothing of a tidy text, unless it ends inside a string or a
parameter. -/
theorem process_force {d : Draft} (h : Tidy d.text) (hopen : leavesOpen .standard d.text = false) :
    (d.process .standard (scan .standard) true).tokens = d.tokens ++ scan .standard d.text ∧
      ∀ c ∈ (d.process .standard (scan .standard) true).text, Text.isBlank c = true := by
  obtain ⟨u, hcut, hprocess⟩ := process_tidy h true
  have hall : committed true d.text = scan .standard d.text := by
    rw [committed, hopen, if_neg (by decide), due, Bool.true_or, if_pos rfl]
  rw [hprocess, hall]
  refine ⟨rfl, ?_⟩
  simp only
  split_ifs with hnil
  · exact h.blank_of_scan_eq_nil hnil
  · have hscan := hcut.scan
    rw [hall, List.self_eq_append_right] at hscan
    rw [Text.trim_eq_nil_of_blank ((h.of_cut hcut).blank_of_scan_eq_nil hscan)]
    simp

/-! ### What is left -/

/-- A text that holds the tokens of another one which reading does not commit. -/
structure Left (t u : Text) : Prop where
  tidy : Tidy u
  scan : scan .standard t = committed false t ++ scan .standard u
  leavesOpen : leavesOpen .standard u = leavesOpen .standard t

/-- What is left is told but for the blanks around it. -/
theorem Left.trim_eq (hu : Left t u) (hv : Left t v) : Text.trim u = Text.trim v := by
  have hscan := hu.scan.symm.trans hv.scan
  rw [List.append_cancel_left_eq] at hscan
  rw [hu.tidy.trim_eq (length_left hu.scan), hv.tidy.trim_eq (length_left hv.scan),
    hu.leavesOpen, hv.leavesOpen, hscan]

theorem Left.of_cut (h : Tidy t) (hcut : Cut t (committed false t) u) : Left t u :=
  ⟨h.of_cut hcut, hcut.scan, hcut.leavesOpen.symm⟩

end Draft

end Typeahead
