import Mathlib.Tactic.SplitIfs
import Typeahead.Toml.Read
import Typeahead.Toml.Write

/-!
# Strings and keys read back

Whatever text is written as a string value or as a key, reading gives that text back and stops where
the written form ends (`readString?_writeString`, `readKey_writeKey`). Each form of a string has its
own lemma. The two readers that know escapes, on one line and on several, agree on them: this is
`Unescapes`, and `Unescapes.escape` covers every character that is escaped. The two readers of
several lines agree on quotes: this is `ReadsQuotes`, which says that a string may hold up to two
quotes in a row and still end before the closing three.
-/

namespace Typeahead.Toml

/-! ## Escapes -/

theorem consRead_some (c : Char) (t rest : Text) :
    consRead (some c) (some (t, rest)) = some (c :: t, rest) := rfl

/-- A reader between double quotes: what it makes of a character and of the escapes that are
written. -/
structure Unescapes (read : Reader Text) : Prop where
  plain : ∀ {c : Char} (rest : Text), c ≠ '"' → c ≠ '\\' → isControl c = false →
    read (c :: rest) = consRead (some c) (read rest)
  short : ∀ {e c : Char} (rest : Text), shortEscape? e = some c →
    read ('\\' :: e :: rest) = consRead (some c) (read rest)
  hex : ∀ (a b c d : Char) (rest : Text), read ('\\' :: 'u' :: a :: b :: c :: d :: rest) =
    consRead (hexChar? [a, b, c, d]) (read rest)

theorem unescapes_readBasic : Unescapes readBasic where
  plain rest hq hb hc := by
    rw [readBasic, if_neg (by simp [hb, hc])]
    all_goals simp [hq, hb]
  short rest h := by
    unfold shortEscape? at h
    split at h <;> cases h <;> rfl
  hex a b c d rest := rfl

theorem readLongBasic_cons {c : Char} {rest : Text} (hq : c = '"' → ¬ ['"', '"'] <+: rest)
    (hb : c ≠ '\\') (hc : isControl c = true → c = '\n') :
    readLongBasic false (c :: rest) = consRead (some c) (readLongBasic false rest) := by
  have hr : c ≠ '\r' := by
    rintro rfl
    exact absurd (hc (by decide)) (by decide)
  rw [readLongBasic]
  · rw [if_neg (by simp), if_neg]
    rintro (h | ⟨h, hn⟩)
    · exact hb h
    · exact hn (hc h)
  · rintro rest' rfl rfl
    exact hq rfl ⟨rest', rfl⟩
  all_goals simp [hb, hr]

theorem unescapes_readLongBasic : Unescapes (readLongBasic false) where
  plain rest hq hb hc := readLongBasic_cons (fun h => absurd h hq) hb (by simp [hc])
  short rest h := by
    unfold shortEscape? at h
    split at h <;> cases h <;> rfl
  hex a b c d rest := rfl

theorem hexChar?_digits : ∀ n < 128, isControl (Char.ofNat n) = true →
    (List.replicate (4 - ((Nat.toDigits 16 n).map Char.toUpper).length) '0' ++
      (Nat.toDigits 16 n).map Char.toUpper).length = 4 ∧
    hexChar? (List.replicate (4 - ((Nat.toDigits 16 n).map Char.toUpper).length) '0' ++
      (Nat.toDigits 16 n).map Char.toUpper) = some (Char.ofNat n) := by
  decide +kernel

theorem toNat_lt_of_isControl {c : Char} (h : isControl c = true) : c.toNat < 128 := by
  simp only [isControl, Bool.or_eq_true, Bool.and_eq_true, decide_eq_true_eq, beq_iff_eq] at h
  omega

theorem Unescapes.escape {read : Reader Text} (h : Unescapes read) {c : Char} (hc : c ≠ '"')
    (rest : Text) : read (Toml.escape c ++ rest) = consRead (some c) (read rest) := by
  unfold Toml.escape
  split_ifs with h1 h2 h3 h4 h5 h6
  · exact h.short rest (by rw [h1]; rfl)
  · exact h.short rest (by rw [h2]; rfl)
  · exact h.short rest (by rw [h3]; rfl)
  · exact h.short rest (by rw [h4]; rfl)
  · exact h.short rest (by rw [h5]; rfl)
  · have hdigits := hexChar?_digits c.toNat (toNat_lt_of_isControl h6) (by rwa [Char.ofNat_toNat])
    rw [Char.ofNat_toNat] at hdigits
    obtain ⟨hlen, hchar⟩ := hdigits
    rw [List.append_assoc, List.append_assoc, ← List.append_assoc (List.replicate _ _)]
    match hfour : List.replicate (4 - ((Nat.toDigits 16 c.toNat).map Char.toUpper).length) '0' ++
      (Nat.toDigits 16 c.toNat).map Char.toUpper, hlen with
    | [a, b, d, e], _ =>
      rw [hfour] at hchar
      exact (h.hex a b d e rest).trans (by rw [hchar])
  · exact h.plain rest hc h5 (by simpa using h6)

theorem readBasic_escapeLine (rest : Text) : ∀ t : Text,
    readBasic (escapeLine t ++ '"' :: rest) = some (t, rest)
  | [] => rfl
  | c :: t => by
    have ih := readBasic_escapeLine rest t
    rw [escapeLine, List.flatMap_cons, ← escapeLine, List.append_assoc]
    split_ifs with hn hq
    · rw [hn, List.cons_append, List.cons_append, List.nil_append,
        unescapes_readBasic.short (c := '\n') _ rfl, ih, consRead_some]
    · rw [hq, List.cons_append, List.cons_append, List.nil_append,
        unescapes_readBasic.short (c := '"') _ rfl, ih, consRead_some]
    · rw [unescapes_readBasic.escape hq, ih, consRead_some]

theorem readLiteral_append (rest : Text) : ∀ {t : Text}, t.any isControl = false → '\'' ∉ t →
    readLiteral (t ++ '\'' :: rest) = some (t, rest)
  | [], _, _ => rfl
  | c :: t, hc, hq => by
    simp only [List.any_cons, Bool.or_eq_false_iff, List.mem_cons, not_or] at hc hq
    rw [List.cons_append, readLiteral, if_neg (by simp [hc.1]), readLiteral_append rest hc.2 hq.2,
      consRead_some]
    exact fun h => hq.1 h.symm

/-! ## Strings of several lines -/

theorem extraQuotes_replicate {q : Char} {rest : Text} (h : rest.head? ≠ some q) {n : Nat}
    (hn : n ≤ 2) : extraQuotes q (List.replicate n q ++ rest) = (List.replicate n q, rest) := by
  match n, hn with
  | 0, _ =>
    match rest, h with
    | [], _ => rfl
    | [a], h =>
      simp only [List.head?_cons, ne_eq, Option.some.injEq] at h
      simp [extraQuotes, h]
    | a :: b :: rest, h =>
      simp only [List.head?_cons, ne_eq, Option.some.injEq] at h
      simp [extraQuotes, h]
  | 1, _ =>
    match rest, h with
    | [], _ => simp [extraQuotes]
    | a :: rest, h =>
      simp only [List.head?_cons, ne_eq, Option.some.injEq] at h
      simp [extraQuotes, List.replicate, h]
  | 2, _ => simp [extraQuotes, List.replicate]

/-- A reader of strings between three quotes: three in a row close, and fewer are characters. -/
structure ReadsQuotes (q : Char) (read : Reader Text) : Prop where
  close : ∀ rest, read (q :: q :: q :: rest) = some (extraQuotes q rest)
  quote : ∀ {rest : Text}, ¬ [q, q] <+: rest → read (q :: rest) = consRead (some q) (read rest)

namespace ReadsQuotes

variable {q : Char} {read : Reader Text} {t u rest : Text} {n : Nat}

theorem replicate_append (h : ReadsQuotes q read) (hu : u.head? ≠ some q) (hn : n ≤ 2)
    (hread : read u = some (t, rest)) :
    read (List.replicate n q ++ u) = some (List.replicate n q ++ t, rest) := by
  have hone : ¬ [q, q] <+: u := by
    rintro ⟨v, rfl⟩
    exact hu rfl
  have htwo : ¬ [q, q] <+: q :: u := by
    rintro ⟨v, hv⟩
    rw [List.cons_append, List.cons.injEq] at hv
    rw [← hv.2] at hu
    exact hu rfl
  match n, hn with
  | 0, _ => exact hread
  | 1, _ =>
    rw [List.replicate_one, List.singleton_append, h.quote hone, hread]
    rfl
  | 2, _ =>
    rw [List.replicate_succ, List.cons_append, List.replicate_one, List.singleton_append,
      h.quote htwo, h.quote hone, hread]
    rfl

theorem closes (h : ReadsQuotes q read) (hrest : rest.head? ≠ some q) (hn : n ≤ 2) :
    read (List.replicate n q ++ q :: q :: q :: rest) = some (List.replicate n q, rest) := by
  have hswap : List.replicate n q ++ q :: q :: q :: rest =
      q :: q :: q :: (List.replicate n q ++ rest) := by
    have hthree : List.replicate n q ++ List.replicate 3 q =
        List.replicate 3 q ++ List.replicate n q := by
      rw [List.replicate_append_replicate, List.replicate_append_replicate, Nat.add_comm]
    simpa using congrArg (· ++ rest) hthree
  rw [hswap, h.close, extraQuotes_replicate hrest hn]

end ReadsQuotes

theorem readLongLiteral_cons {c : Char} {rest : Text} (hq : c = '\'' → ¬ ['\'', '\''] <+: rest)
    (hc : isControl c = true → c = '\n') :
    readLongLiteral (c :: rest) = consRead (some c) (readLongLiteral rest) := by
  have hr : c ≠ '\r' := by
    rintro rfl
    exact absurd (hc (by decide)) (by decide)
  rw [readLongLiteral]
  · rw [if_neg fun h => h.2 (hc h.1)]
  · rintro rest' rfl rfl
    exact hq rfl ⟨rest', rfl⟩
  · rintro _ rfl
    exact absurd rfl hr

theorem readsQuotes_readLongBasic : ReadsQuotes '"' (readLongBasic false) where
  close rest := rfl
  quote {rest} h := readLongBasic_cons (fun _ => h) (by decide) (by decide)

theorem readsQuotes_readLongLiteral : ReadsQuotes '\'' readLongLiteral where
  close rest := rfl
  quote {rest} h := readLongLiteral_cons (fun _ => h) (by decide)

theorem replicate_append_cons (n : Nat) (q : Char) (t : Text) :
    List.replicate n q ++ q :: t = List.replicate (n + 1) q ++ t := by
  rw [List.replicate_succ', List.append_assoc]
  rfl

theorem head?_escape {c : Char} (hc : c ≠ '"') (rest : Text) :
    (escape c ++ rest).head? ≠ some '"' := by
  unfold escape
  split_ifs <;> simp [hc]

/-- Three quotes in a row close a string, so the third one in a row is escaped. -/
theorem readLongBasic_escapeLines {rest : Text} (hrest : rest.head? ≠ some '"') :
    ∀ (t : Text) {n : Nat}, n ≤ 2 →
      readLongBasic false (List.replicate n '"' ++ (escapeLines n t ++ '"' :: '"' :: '"' :: rest)) =
        some (List.replicate n '"' ++ t, rest)
  | [], n, hn => by
    rw [List.append_nil]
    exact readsQuotes_readLongBasic.closes hrest hn
  | c :: t, n, hn => by
    have ih := readLongBasic_escapeLines hrest t (Nat.zero_le 2)
    simp only [List.replicate_zero, List.nil_append] at ih
    unfold escapeLines
    split_ifs with hq htwo hline
    · refine readsQuotes_readLongBasic.replicate_append (by simp) hn ?_
      rw [hq, List.append_assoc, List.cons_append, List.cons_append, List.nil_append,
        unescapes_readLongBasic.short (c := '"') _ rfl, ih, consRead_some]
    · rw [hq, List.cons_append, replicate_append_cons, replicate_append_cons]
      exact readLongBasic_escapeLines hrest t (by omega)
    · refine readsQuotes_readLongBasic.replicate_append (by simp) hn ?_
      rw [hline, List.cons_append, readLongBasic_cons (by simp) (by decide) (by simp), ih,
        consRead_some]
    · refine readsQuotes_readLongBasic.replicate_append ?_ hn ?_
      · rw [List.append_assoc]
        exact head?_escape hq _
      · rw [List.append_assoc, unescapes_readLongBasic.escape hq, ih, consRead_some]

theorem hasRunOfThree_tail {q a : Char} : ∀ {t : Text}, hasRunOfThree q (a :: t) = false →
    hasRunOfThree q t = false
  | [], _ | [_], _ => rfl
  | b :: c :: t, h => by
    rw [hasRunOfThree, Bool.or_eq_false_iff] at h
    exact h.2

theorem hasRunOfThree_append {q : Char} {t : Text} : ∀ {s : Text},
    hasRunOfThree q (s ++ t) = false → hasRunOfThree q t = false
  | [], h => h
  | _ :: _, h => hasRunOfThree_append (hasRunOfThree_tail h)

theorem readLongLiteral_append {rest : Text} (hrest : rest.head? ≠ some '\'') :
    ∀ (t : Text) {n : Nat}, n ≤ 2 → t.any needsEscape = false →
      hasRunOfThree '\'' (List.replicate n '\'' ++ t) = false →
      readLongLiteral (List.replicate n '\'' ++ (t ++ '\'' :: '\'' :: '\'' :: rest)) =
        some (List.replicate n '\'' ++ t, rest)
  | [], n, hn, _, _ => by
    rw [List.append_nil]
    exact readsQuotes_readLongLiteral.closes hrest hn
  | c :: t, n, hn, hc, hrun => by
    simp only [List.any_cons, Bool.or_eq_false_iff] at hc
    have ih := readLongLiteral_append hrest t (Nat.zero_le 2) hc.2
      (hasRunOfThree_tail (hasRunOfThree_append hrun))
    simp only [List.replicate_zero, List.nil_append] at ih
    by_cases hq : c = '\''
    · subst hq
      have hlt : n ≠ 2 := by
        rintro rfl
        simp [List.replicate, hasRunOfThree] at hrun
      rw [replicate_append_cons] at hrun
      rw [List.cons_append, replicate_append_cons, replicate_append_cons]
      exact readLongLiteral_append hrest t (by omega) hc.2 hrun
    · refine readsQuotes_readLongLiteral.replicate_append (by simp [hq]) hn ?_
      rw [List.cons_append, readLongLiteral_cons (fun h => absurd h hq) ?_, ih, consRead_some]
      simpa [needsEscape] using hc.1

/-! ## Values and keys -/

variable {t rest : Text}

theorem head?_escapeLine (hrest : rest.head? ≠ some '"') :
    ¬ ['"', '"'] <+: escapeLine t ++ '"' :: rest := by
  rintro ⟨u, hu⟩
  rcases t with _ | ⟨c, t⟩
  · rw [escapeLine, List.flatMap_nil, List.nil_append, List.cons_append, List.cons.injEq] at hu
    rw [← hu.2] at hrest
    exact hrest rfl
  · have hhead := congrArg List.head? hu
    rw [escapeLine, List.flatMap_cons, List.append_assoc] at hhead
    split_ifs at hhead with hn hq
    · cases hhead
    · cases hhead
    · exact head?_escape hq _ hhead.symm

theorem readString?_basic (ht : ¬ ['"', '"'] <+: t) : readString? ('"' :: t) = readBasic t := by
  rw [readString?]
  rintro u rfl
  exact ht ⟨u, rfl⟩

theorem readString?_tick (ht : ¬ ['\'', '\''] <+: t) :
    readString? ('\'' :: t) = readLiteral t := by
  rw [readString?]
  rintro u rfl
  exact ht ⟨u, rfl⟩

theorem readString?_escapeLine (hrest : rest.head? ≠ some '"') (t : Text) :
    readString? (['"'] ++ escapeLine t ++ ['"'] ++ rest) = some (t, rest) := by
  simp only [List.append_assoc, List.cons_append, List.nil_append]
  rw [readString?_basic (head?_escapeLine hrest), readBasic_escapeLine]

theorem readString?_literal (hrest : rest.head? ≠ some '\'') (hc : t.any isControl = false)
    (hq : '\'' ∉ t) : readString? (['\''] ++ t ++ ['\''] ++ rest) = some (t, rest) := by
  simp only [List.append_assoc, List.cons_append, List.nil_append]
  rw [readString?_tick, readLiteral_append rest hc hq]
  rintro ⟨u, hu⟩
  rcases t with _ | ⟨c, t⟩
  · rw [List.nil_append, List.cons_append, List.cons.injEq] at hu
    rw [← hu.2] at hrest
    exact hrest rfl
  · simp only [List.cons_append, List.cons.injEq] at hu
    exact hq (hu.1 ▸ List.mem_cons_self)

theorem dropLineEnd_openLines {u : Text}
    (h : '\n' ∉ t → u.head? ≠ some '\n' ∧ u.head? ≠ some '\r') :
    dropLineEnd (openLines t ++ u) = u := by
  unfold openLines
  split_ifs with hn
  · rfl
  · obtain ⟨hline, hreturn⟩ := h hn
    rw [List.nil_append]
    unfold dropLineEnd
    split
    · exact absurd rfl hline
    · exact absurd rfl hreturn
    · rfl

theorem readString?_escapeLines (hrest : rest.head? ≠ some '"') (t : Text) :
    readString? (['"', '"', '"'] ++ openLines t ++ escapeLines 0 t ++ ['"', '"', '"'] ++ rest) =
      some (t, rest) := by
  simp only [List.append_assoc, List.cons_append, List.nil_append]
  rw [readString?, dropLineEnd_openLines]
  · exact readLongBasic_escapeLines hrest t (Nat.zero_le 2)
  · intro hn
    rcases t with _ | ⟨c, t⟩
    · simp [escapeLines]
    · rw [List.mem_cons, not_or] at hn
      have hescape : ∀ u : Text, (escape c ++ u).head? ≠ some '\n' ∧
          (escape c ++ u).head? ≠ some '\r' := by
        intro u
        by_cases hr : c = '\r'
        · subst hr
          exact ⟨by simp [escape], by simp [escape]⟩
        · have hne : c ≠ '\n' := fun h => hn.1 h.symm
          unfold escape
          split_ifs <;> simp [hr, hne]
      unfold escapeLines
      split_ifs with hq htwo hline
      · exact absurd htwo (by decide)
      · simp
      · exact absurd hline.symm hn.1
      · rw [List.append_assoc]
        exact hescape _

theorem readString?_longLiteral (hrest : rest.head? ≠ some '\'') (hc : t.any needsEscape = false)
    (hrun : hasRunOfThree '\'' t = false) :
    readString? (['\'', '\'', '\''] ++ openLines t ++ t ++ ['\'', '\'', '\''] ++ rest) =
      some (t, rest) := by
  simp only [List.append_assoc, List.cons_append, List.nil_append]
  rw [readString?, dropLineEnd_openLines]
  · exact readLongLiteral_append hrest t (Nat.zero_le 2) hc hrun
  · intro hn
    rcases t with _ | ⟨c, t⟩
    · simp
    · rw [List.mem_cons, not_or] at hn
      simp only [List.any_cons, Bool.or_eq_false_iff] at hc
      refine ⟨by simpa using fun h => hn.1 h.symm, ?_⟩
      rintro ⟨⟩
      exact absurd hc.1 (by decide)

theorem readString?_writeString (hq : rest.head? ≠ some '"') (ht : rest.head? ≠ some '\'')
    (t : Text) : readString? (writeString t ++ rest) = some (t, rest) := by
  unfold writeString
  simp only
  split_ifs with _ hline _ hlong _
  · exact readString?_escapeLine hq t
  · simp only [Bool.and_eq_true, Bool.not_eq_true', decide_eq_true_eq] at hline
    refine readString?_literal ht ?_ hline.2
    rw [List.any_eq_false] at hline ⊢
    intro c hc
    have hn : c ≠ '\n' := fun h => hline.1.2 (h ▸ hc)
    simpa [needsEscape, hn] using hline.1.1 c hc
  · exact readString?_escapeLines hq t
  · simp only [Bool.and_eq_true, Bool.not_eq_true'] at hlong
    exact readString?_longLiteral ht hlong.1 hlong.2
  · exact readString?_escapeLines hq t
  · exact readString?_escapeLine hq t

theorem readKey_writeKey (hrest : ∀ c ∈ rest.head?, isBareKeyChar c = false) (t : Text) :
    readKey (writeKey t ++ rest) = some (t, rest) := by
  unfold writeKey
  split_ifs with hbare hplain hline
  · simp only [ne_eq, Bool.and_eq_true, decide_eq_true_eq, List.all_eq_true] at hbare
    have htake : (t ++ rest).takeWhile isBareKeyChar = t := by
      rw [List.takeWhile_append_of_pos hbare.2]
      rcases rest with _ | ⟨d, rest⟩
      · simp
      · rw [List.takeWhile_cons_of_neg (by simp [hrest d rfl]), List.append_nil]
    have hdrop : (t ++ rest).dropWhile isBareKeyChar = rest := by
      rw [List.dropWhile_append_of_pos hbare.2]
      rcases rest with _ | ⟨d, rest⟩
      · rfl
      · rw [List.dropWhile_cons_of_neg (by simp [hrest d rfl])]
    rcases t with _ | ⟨c, t⟩
    · exact absurd rfl hbare.1
    · have hc := hbare.2 c List.mem_cons_self
      have hq : c ≠ '"' := by rintro rfl; cases hc
      have ht : c ≠ '\'' := by rintro rfl; cases hc
      rw [List.cons_append, readKey, ← List.cons_append, htake, hdrop]
      · simpa using hq
      · simpa using ht
  · simp only [List.append_assoc, List.singleton_append]
    exact readBasic_escapeLine rest t
  · simp only [Bool.and_eq_true, Bool.not_eq_true', decide_eq_true_eq] at hline
    simp only [List.append_assoc, List.singleton_append]
    exact readLiteral_append rest hline.1 hline.2
  · simp only [List.append_assoc, List.singleton_append]
    exact readBasic_escapeLine rest t

end Typeahead.Toml
