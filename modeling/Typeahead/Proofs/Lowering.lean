import Mathlib.Data.List.Chain
import Mathlib.Tactic.SplitIfs
import Typeahead.Text.Lower

/-!
# What lower case does to a text

No small letter is the capital letter of another one: the small letters of a range lie beside every
range of capital letters or stand between them (`CaseRange.clearOf_of_mem`). So lowering the case a
second time changes nothing (`lower_lower`).

Characters that are no letters, such as the dot, come from nowhere else (`eq_of_mem_lowerChar`).
Where no capital sigma looks around itself, each character is lowered on its own, and so the pieces
between two dots are (`lower_append_dot`).
-/

namespace Typeahead.Text

namespace CaseRange

variable {r q : CaseRange} {n m : Nat}

theorem first_pairwise : caseRanges.Pairwise (·.first < ·.first) :=
  List.pairwise_map.1 (List.isChain_iff_pairwise.1 (by decide +kernel))

/-- No small letter of a range is a capital letter of other ranges, which stand in order: the ranges
before the small letters do not count, the first one beyond them ends the search, and in between
the small letters take the other places. -/
def clearOf (r : CaseRange) : List CaseRange → Bool
  | [] => true
  | q :: qs =>
    bif q.last.blt r.low then clearOf r qs
    else (r.low + (r.last - r.first)).blt q.first ||
      (q.stride == 2 && (r.stride == 2 || r.last == r.first) && (r.low + q.first) % 2 == 1) &&
        clearOf r qs

theorem clearOf_of_mem : ∀ r ∈ caseRanges, r.clearOf caseRanges = true := by
  decide +kernel

/-- Small letters are characters. They are not ASCII, but for the one of the kelvin sign, and `İ` is
not among them. -/
theorem low_of_mem : ∀ r ∈ caseRanges,
    (r.low + (r.last - r.first) < 0xd800 ∨ 0xdfff < r.low ∧ r.low + (r.last - r.first) < 0x110000) ∧
    (0x80 ≤ r.low ∨ r.low = 'k'.toNat ∧ r.last = r.first) ∧
    (r.low + (r.last - r.first) < 0x130 ∨ 0x130 < r.low) := by
  decide +kernel

/-- Neither the dot above, which `İ` leaves behind, nor a small sigma is a capital letter. -/
theorem lower?_mark : ∀ r ∈ caseRanges, ∀ n ∈ [0x307, 0x3c2, 0x3c3], r.lower? n = none := by
  decide +kernel

theorem lower?_eq_some (h : r.lower? n = some m) : r.first ≤ n ∧ n ≤ r.last ∧
    (n - r.first) % r.stride = 0 ∧ m = r.low + (n - r.first) := by
  unfold lower? at h
  split_ifs at h with hn
  exact ⟨hn.1, hn.2.1, hn.2.2, (Option.some.inj h).symm⟩

theorem lower?_eq_none_of_clearOf (hm : r.lower? n = some m) : ∀ {qs : List CaseRange},
    qs.Pairwise (·.first < ·.first) → r.clearOf qs = true → ∀ q ∈ qs, q.lower? m = none
  | [], _, _ => by simp
  | q :: qs, hsorted, h => by
    rw [List.pairwise_cons] at hsorted
    have hrest := lower?_eq_none_of_clearOf hm hsorted.2
    obtain ⟨hfirst, hlast, hstride, hlow⟩ := lower?_eq_some hm
    have hnone : ∀ {q : CaseRange}, ¬ (q.first ≤ m ∧ m ≤ q.last ∧ (m - q.first) % q.stride = 0) →
        q.lower? m = none := fun hnot => if_neg hnot
    rw [clearOf, Bool.cond_eq_ite] at h
    rw [List.forall_mem_cons]
    split_ifs at h with hbefore
    · rw [Nat.blt_eq] at hbefore
      exact ⟨hnone (by omega), hrest h⟩
    · simp only [Bool.or_eq_true, Bool.and_eq_true, Nat.blt_eq, beq_iff_eq] at h
      rcases h with hbeyond | ⟨⟨⟨hq, hr⟩, hodd⟩, h⟩
      · refine ⟨hnone (by omega), fun q' hq' => hnone ?_⟩
        have := hsorted.1 q' hq'
        omega
      · refine ⟨hnone ?_, hrest h⟩
        rw [hq]
        rcases hr with hr | hr
        · rw [hr] at hstride
          omega
        · omega

end CaseRange

variable {b c d : Char} {t u : Text}

/-! ### Characters -/

theorem toNat_ofNat {n : Nat} (h : n.isValidChar) : (Char.ofNat n).toNat = n := by
  rw [Char.ofNat, dif_pos h]
  rfl

/-- A small letter that is found in the table has no entry itself. -/
theorem small_of_findSome? {n m : Nat} (h : caseRanges.findSome? (·.lower? n) = some m) :
    (Char.ofNat m).toNat = m ∧ (0x80 ≤ m ∨ m = 'k'.toNat) ∧ m ≠ 0x130 ∧
      ∀ r ∈ caseRanges, r.lower? m = none := by
  obtain ⟨r, hr, hm⟩ := List.exists_of_findSome?_eq_some h
  obtain ⟨hfirst, hlast, -, hlow⟩ := CaseRange.lower?_eq_some hm
  obtain ⟨hvalid, hascii, hdot⟩ := CaseRange.low_of_mem r hr
  refine ⟨toNat_ofNat ?_, by omega, by omega, ?_⟩
  · unfold Nat.isValidChar
    omega
  · exact CaseRange.lower?_eq_none_of_clearOf hm CaseRange.first_pairwise
      (CaseRange.clearOf_of_mem r hr)

theorem lowerChar_toLower (h : c.toNat < 0x80) : lowerChar c.toLower = [c.toLower] ∧
    (c.toLower.isAlpha = false → c.toLower = c) := by
  have hall : ∀ n < 0x80, lowerChar (Char.ofNat n).toLower = [(Char.ofNat n).toLower] ∧
      ((Char.ofNat n).toLower.isAlpha = false → (Char.ofNat n).toLower = Char.ofNat n) := by
    decide +kernel
  have hc := hall c.toNat h
  rwa [Char.ofNat_toNat] at hc

/-- The lower case of a character: of an ASCII one, of `İ`, of a capital letter in the table, or of
any other, which it leaves alone. -/
theorem lowerChar_cases (c : Char) :
    c.toNat < 0x80 ∧ lowerChar c = [c.toLower] ∨
    lowerChar c = ['i', Char.ofNat 0x307] ∨
    (∃ m, caseRanges.findSome? (·.lower? c.toNat) = some m ∧ lowerChar c = [Char.ofNat m]) ∨
    lowerChar c = [c] := by
  rw [lowerChar]
  split_ifs with hascii hdot
  · exact .inl ⟨hascii, rfl⟩
  · exact .inr (.inl rfl)
  · rcases hm : caseRanges.findSome? (·.lower? c.toNat) with _ | m
    · exact .inr (.inr (.inr (by rw [hm]; rfl)))
    · exact .inr (.inr (.inl ⟨m, hm, by rw [hm]; rfl⟩))

theorem lowerChar_eq_self (hascii : 0x80 ≤ c.toNat) (hdot : c.toNat ≠ 0x130)
    (hnone : ∀ r ∈ caseRanges, r.lower? c.toNat = none) : lowerChar c = [c] := by
  rw [lowerChar, if_neg (by omega), if_neg hdot, List.findSome?_eq_none_iff.2 hnone]
  rfl

/-- What lower case gives is in lower case. -/
theorem lowerChar_of_mem_lowerChar (h : d ∈ lowerChar c) : lowerChar d = [d] := by
  rcases lowerChar_cases c with ⟨hascii, hc⟩ | hc | ⟨m, hm, hc⟩ | hc <;> rw [hc] at h
  · rw [List.mem_singleton.1 h]
    exact (lowerChar_toLower hascii).1
  · rcases List.mem_cons.1 h with rfl | h
    · rfl
    · rw [List.mem_singleton.1 h]
      exact lowerChar_eq_self (by decide) (by decide) fun r hr =>
        CaseRange.lower?_mark r hr _ (by decide)
  · rw [List.mem_singleton.1 h]
    obtain ⟨hnat, hbeyond | rfl, hne, hnone⟩ := small_of_findSome? hm
    · rw [← hnat] at hbeyond hne hnone
      exact lowerChar_eq_self hbeyond hne hnone
    · decide
  · rw [List.mem_singleton.1 h, hc]

theorem lowerChar_ne_nil (c : Char) : lowerChar c ≠ [] := by
  unfold lowerChar
  split_ifs <;> simp

/-- An ASCII character that is no letter is what only it becomes. -/
theorem eq_of_mem_lowerChar (hb : b.toNat < 0x80) (hletter : b.isAlpha = false)
    (h : b ∈ lowerChar c) : c = b := by
  rcases lowerChar_cases c with ⟨hascii, hc⟩ | hc | ⟨m, hm, hc⟩ | hc <;> rw [hc] at h
  · cases List.mem_singleton.1 h
    exact ((lowerChar_toLower hascii).2 hletter).symm
  · rcases List.mem_cons.1 h with rfl | h
    · cases hletter
    · cases List.mem_singleton.1 h
      exact absurd hb (by decide)
  · cases List.mem_singleton.1 h
    obtain ⟨hnat, hbeyond | rfl, -, -⟩ := small_of_findSome? hm
    · omega
    · cases hletter
  · exact (List.mem_singleton.1 h).symm

/-! ### Texts -/

theorem lowerAfter_of_small : ∀ {t : Text} (before : Text), (∀ c ∈ t, lowerChar c = [c]) →
    lowerAfter before t = t
  | [], _, _ => rfl
  | c :: t, before, h => by
    have hc := h c List.mem_cons_self
    have hsigma : c ≠ capitalSigma := by
      rintro rfl
      exact absurd hc (by decide)
    rw [lowerAfter, if_neg hsigma, hc,
      lowerAfter_of_small _ fun d hd => h d (List.mem_cons_of_mem c hd)]
    rfl

theorem small_of_mem_lowerAfter : ∀ {t before : Text}, d ∈ lowerAfter before t →
    lowerChar d = [d]
  | c :: t, before, h => by
    rw [lowerAfter] at h
    rcases List.mem_append.1 h with h | h
    · split_ifs at h
      · rw [List.mem_singleton.1 h, smallSigma]
        split_ifs <;> exact lowerChar_eq_self (by decide) (by decide) fun r hr =>
          CaseRange.lower?_mark r hr _ (by decide)
      · exact lowerChar_of_mem_lowerChar h
    · exact small_of_mem_lowerAfter h

/-- Lower case stays as it is. -/
theorem lower_lower (t : Text) : lower (lower t) = lower t :=
  lowerAfter_of_small _ fun _ hd => small_of_mem_lowerAfter hd

theorem mem_of_mem_lowerAfter (hb : b.toNat < 0x80) (hletter : b.isAlpha = false) :
    ∀ {t before : Text}, b ∈ lowerAfter before t → b ∈ t
  | c :: t, before, h => by
    rw [lowerAfter] at h
    rcases List.mem_append.1 h with h | h
    · split_ifs at h
      · -- Neither small sigma is an ASCII character.
        rw [List.mem_singleton.1 h, smallSigma] at hb
        split_ifs at hb <;> exact absurd hb (by decide)
      · rw [eq_of_mem_lowerChar hb hletter h]
        exact List.mem_cons_self
    · exact List.mem_cons_of_mem c (mem_of_mem_lowerAfter hb hletter h)

/-- Without a capital sigma every character is lowered on its own. -/
theorem lowerAfter_of_no_sigma : ∀ {t : Text} (before : Text), capitalSigma ∉ t →
    lowerAfter before t = lowerEach t
  | [], _, _ => rfl
  | c :: t, before, h => by
    rw [List.mem_cons, not_or] at h
    rw [lowerAfter, if_neg (Ne.symm h.1), lowerAfter_of_no_sigma _ h.2]
    rfl

theorem lower_append_dot (h : capitalSigma ∉ t ++ '.' :: u) :
    lower (t ++ '.' :: u) = lower t ++ '.' :: lower u := by
  have hpieces := h
  simp only [List.mem_append, List.mem_cons, not_or] at hpieces
  rw [lower, lower, lower, lowerAfter_of_no_sigma _ h, lowerAfter_of_no_sigma _ hpieces.1,
    lowerAfter_of_no_sigma _ hpieces.2.2, lowerEach, List.flatMap_append, List.flatMap_cons]
  rfl

end Typeahead.Text
