import Mathlib.Data.List.DropRight
import Mathlib.Tactic.SplitIfs
import Typeahead.Proofs.Lowering
import Typeahead.Session.Draft

/-!
# The ends of a text

Trimming takes blanks off the two ends, in either order (`trim_trimEnd`), and leaves the characters
that are not blank in place (`visible_trim`). At the front, lower case merges letters only, so a text
that starts with a closing brace does not start with a literal that starts with something else,
whatever the case of its letters (`dropIgnoringCase?_brace`).
-/

namespace Typeahead.Text

theorem trimStart_cons_of_blank {c : Char} (h : isBlank c = true) (t : Text) :
    trimStart (c :: t) = trimStart t :=
  List.dropWhile_cons_of_pos h

theorem trimStart_cons_of_not_blank {c : Char} (h : isBlank c = false) (t : Text) :
    trimStart (c :: t) = c :: t :=
  List.dropWhile_cons_of_neg (by simp [h])

theorem trimEnd_append (s t : Text) :
    trimEnd (s ++ t) = if trimEnd t = [] then trimEnd s else s ++ trimEnd t := by
  unfold trimEnd
  rw [List.reverse_append, List.dropWhile_append]
  simp only [List.isEmpty_iff, List.reverse_eq_nil_iff]
  split_ifs <;> simp

/-- Trimming stops at a character that is not blank. -/
theorem trimEnd_append_of_not_blank {d : Char} (h : isBlank d = false) (s t : Text) :
    trimEnd (s ++ [d] ++ t) = s ++ [d] ++ trimEnd t := by
  have hd : trimEnd (s ++ [d]) = s ++ [d] := by
    simp [trimEnd, h]
  rw [trimEnd_append (s ++ [d])]
  split_ifs with ht
  · rw [hd, ht, List.append_nil]
  · rfl

theorem trimEnd_cons_of_not_blank {c : Char} (h : isBlank c = false) (t : Text) :
    trimEnd (c :: t) = c :: trimEnd t :=
  trimEnd_append_of_not_blank h [] t

theorem trim_cons_of_blank {c : Char} (h : isBlank c = true) (t : Text) :
    trim (c :: t) = trim t := by
  rw [trim, trimStart_cons_of_blank h, trim]

theorem trim_cons_of_not_blank {c : Char} (h : isBlank c = false) (t : Text) :
    trim (c :: t) = c :: trimEnd t := by
  rw [trim, trimStart_cons_of_not_blank h, trimEnd_cons_of_not_blank h]

theorem trim_trimStart (t : Text) : trim (trimStart t) = trim t := by
  rw [trim, trimStart, trimStart, List.dropWhile_idempotent]
  rfl

theorem trim_trimEnd : ∀ t : Text, trim (trimEnd t) = trim t
  | [] => rfl
  | c :: t => by
    have ih := trim_trimEnd t
    cases hc : isBlank c
    · rw [trimEnd_cons_of_not_blank hc, trim_cons_of_not_blank hc, trim_cons_of_not_blank hc]
      exact congrArg (c :: ·) (List.rdropWhile_idempotent _ _)
    · have happ := trimEnd_append [c] t
      rw [List.singleton_append] at happ
      rw [trim_cons_of_blank hc, ← ih, happ]
      split_ifs with ht
      · rw [ht]
        simp [trim, trimEnd, trimStart, hc]
      · exact trim_cons_of_blank hc _

theorem trim_length_le (t : Text) : (trim t).length ≤ t.length := (trim_isInfix t).length_le

theorem trimEnd_eq_nil_iff {t : Text} : trimEnd t = [] ↔ ∀ c ∈ t, isBlank c = true :=
  List.rdropWhile_eq_nil_iff

theorem trim_eq_nil_of_blank {t : Text} (h : ∀ c ∈ t, isBlank c = true) : trim t = [] := by
  rw [trim, trimStart, List.dropWhile_eq_nil_iff.2 h]
  rfl

theorem endsBlank_append {t : Text} (h : t ≠ []) (s : Text) :
    endsBlank (s ++ t) = endsBlank t := by
  rw [endsBlank, List.getLast?_append_of_ne_nil s h, endsBlank]

theorem endsBlank_concat (s : Text) (c : Char) : endsBlank (s ++ [c]) = isBlank c :=
  endsBlank_append (List.cons_ne_nil c []) s

theorem trimEnd_eq_self_iff {t : Text} : trimEnd t = t ↔ endsBlank t = false := by
  refine List.rdropWhile_eq_self_iff.trans ?_
  rcases List.eq_nil_or_concat t with rfl | ⟨init, c, rfl⟩
  · simp [endsBlank]
  · simp [endsBlank]

theorem endsBlank_trimEnd (t : Text) : endsBlank (trimEnd t) = false :=
  trimEnd_eq_self_iff.1 (List.rdropWhile_idempotent _ _)

/-- What trimming takes off the end. -/
theorem eq_trimEnd_append (t : Text) :
    ∃ blanks, t = trimEnd t ++ blanks ∧ ∀ c ∈ blanks, isBlank c = true :=
  ⟨t.rtakeWhile isBlank, List.rdropWhile_append_rtakeWhile.symm,
    fun _ hc => List.mem_rtakeWhile_imp hc⟩

/-- The two ends can be trimmed in either order. -/
theorem trimStart_trimEnd (t : Text) : trimStart (trimEnd t) = trim t := by
  have hend : endsBlank (trimStart (trimEnd t)) = false := by
    obtain ⟨pre, hpre⟩ := trimStart_isSuffix (trimEnd t)
    by_cases hnil : trimStart (trimEnd t) = []
    · rw [hnil]
      rfl
    · rw [← endsBlank_append hnil pre, hpre, endsBlank_trimEnd]
  rw [← trim_trimEnd, trim, trimEnd_eq_self_iff.2 hend]

theorem trim_trim (t : Text) : trim (trim t) = trim t := by
  conv_lhs => rw [← trimStart_trimEnd t, trim_trimStart, trim_trimEnd]

/-- The characters of a text that are not blank. -/
def visible (t : Text) : Text := t.filter (!isBlank ·)

theorem visible_append (s t : Text) : visible (s ++ t) = visible s ++ visible t :=
  List.filter_append s t

theorem visible_singleton (c : Char) : visible [c] = if isBlank c then [] else [c] := by
  cases h : isBlank c <;> simp [visible, h]

theorem visible_trimStart : ∀ t : Text, visible (trimStart t) = visible t
  | [] => rfl
  | c :: t => by
    cases h : isBlank c
    · rw [trimStart_cons_of_not_blank h]
    · rw [trimStart_cons_of_blank h, visible_trimStart t]
      simp [visible, h]

theorem visible_trimEnd (t : Text) : visible (trimEnd t) = visible t := by
  have h := visible_trimStart t.reverse
  unfold visible trimStart at h
  unfold visible trimEnd
  rw [List.filter_reverse, h, List.filter_reverse, List.reverse_reverse]

theorem visible_trim (t : Text) : visible (trim t) = visible t := by
  rw [trim, visible_trimEnd, visible_trimStart]

/-- The last visible character goes with the last character, unless that one is blank. -/
theorem visible_append_dropLast (s t : Text) : visible (s ++ t.dropLast) =
    if t.getLast?.any (!isBlank ·) then (visible (s ++ t)).dropLast else visible (s ++ t) := by
  rcases List.eq_nil_or_concat t with rfl | ⟨init, c, rfl⟩
  · rfl
  · have hlast : visible (s ++ init.concat c) = visible (s ++ init) ++ visible [c] := by
      rw [List.concat_eq_append, ← List.append_assoc, visible_append]
    rw [hlast, visible_singleton]
    cases h : isBlank c <;> simp [h]

theorem dropIgnoringCase?_append (start t : Text) :
    dropIgnoringCase? start (start ++ t) = some t := by
  simp [dropIgnoringCase?]

theorem dropIgnoringCase?_of_length_lt {start t : Text} (h : t.length < start.length) :
    dropIgnoringCase? start t = none := by
  rw [dropIgnoringCase?, if_neg]
  omega

theorem dropIgnoringCase?_brace {c : Char} (hc : c ≠ '\x7d') (start t : Text) :
    dropIgnoringCase? (c :: start) ('\x7d' :: t) = none := by
  obtain ⟨d, rest, hd⟩ := List.exists_cons_of_ne_nil (lowerChar_ne_nil c)
  rw [dropIgnoringCase?, if_neg]
  rintro ⟨-, h⟩
  simp only [List.length_cons, List.take_succ_cons, lowerEach, List.flatMap_cons, hd] at h
  have hbrace : '\x7d' ∈ lowerChar c := by
    rw [hd, ← List.head_eq_of_cons_eq h]
    exact List.mem_cons_self
  exact hc (eq_of_mem_lowerChar (by decide) (by decide) hbrace)

end Typeahead.Text
