import Mathlib.Tactic.SplitIfs
import Typeahead.Session.Draft

/-!
# Reading comes to an end

A pass tries to shift some tokens, and a token that is shifted takes as many characters off the text
as its literal has. That says all that is needed here: nothing depends on the grammar or on how the
text is cut into tokens, so the tokens may be empty, repeated or unrelated to the text.

Whatever is pushed, the text that is left is a piece of the text there was, and the literals pushed
fit into the rest of it (`Draft.Spends`). So a pass that changes the text makes it shorter, and
passes are repeated at most once for each character (`Draft.process_stops`).
-/

namespace Typeahead

/-- However a token is spelled, its length is that of its literal. -/
theorem Token.length_of_mem_spellings {token : Token} {s : Text} (h : s ∈ token.spellings) :
    s.length = token.literal.length := by
  unfold spellings at h
  split_ifs at h with hq
  · simp only [List.mem_cons, List.not_mem_nil, or_false] at h
    rcases h with rfl | rfl <;> simp [literal, hq.1]
  · rw [List.mem_singleton.1 h]

theorem Text.length_of_dropIgnoringCase? {start t rest : Text}
    (h : Text.dropIgnoringCase? start t = some rest) : start.length + rest.length = t.length := by
  unfold dropIgnoringCase? at h
  split_ifs at h with hs
  cases h
  rw [List.length_drop]
  omega

namespace Draft

variable {d d' d'' : Draft} {ts us : List Token}

/-- The second draft has some more tokens than the first one and a piece of its text, such that the
literals of these tokens and the piece are together no longer than the text was. -/
structure Spends (d : Draft) (ts : List Token) (d' : Draft) : Prop where
  tokens : d'.tokens = d.tokens ++ ts
  isInfix : d'.text <:+: d.text
  length_le : (ts.flatMap (·.literal)).length + d'.text.length ≤ d.text.length

theorem Spends.refl (d : Draft) : d.Spends [] d := ⟨by simp, List.infix_rfl, by simp⟩

theorem Spends.trans (h : d.Spends ts d') (h' : d'.Spends us d'') : d.Spends (ts ++ us) d'' where
  tokens := by rw [h'.tokens, h.tokens, List.append_assoc]
  isInfix := h'.isInfix.trans h.isInfix
  length_le := by
    have := h.length_le
    have := h'.length_le
    rw [List.flatMap_append, List.length_append]
    omega

theorem exists_spends_shift (d : Draft) (token : Token) : ∃ ts, d.Spends ts (d.shift token) := by
  have hpiece := d.shift_text_isInfix token
  unfold shift at hpiece ⊢
  rcases h : token.spellings.findSome? (Text.dropIgnoringCase? · (Text.trim d.text)) with _ | rest
  · exact ⟨[], .refl d⟩
  · rw [h] at hpiece
    obtain ⟨s, hs, hrest⟩ := List.exists_of_findSome?_eq_some h
    have hlen := Text.length_of_dropIgnoringCase? hrest
    have htrim := (Text.trim_isInfix d.text).length_le
    have hstart := (Text.trimStart_isSuffix rest).length_le
    refine ⟨[token], rfl, hpiece, ?_⟩
    rw [Token.length_of_mem_spellings hs] at hlen
    simp only [List.flatMap_singleton]
    omega

theorem exists_spends_foldl : ∀ (ts : List Token) (d : Draft), ∃ us, d.Spends us (ts.foldl shift d)
  | [], d => ⟨[], .refl d⟩
  | token :: ts, d => by
    obtain ⟨us, hus⟩ := d.exists_spends_shift token
    obtain ⟨vs, hvs⟩ := exists_spends_foldl ts (d.shift token)
    exact ⟨us ++ vs, hus.trans hvs⟩

variable (g : Grammar) (tokenize : Text → List Token) (force : Bool)

theorem exists_spends_pass (d : Draft) : ∃ ts, d.Spends ts (d.pass g tokenize force) := by
  unfold pass
  simp only []
  split
  · exact ⟨[], .refl d⟩
  · rename_i last _
    obtain ⟨ts, hts⟩ := exists_spends_foldl (tokenize d.text).dropLast d
    split_ifs
    · obtain ⟨us, hus⟩ := exists_spends_shift ((tokenize d.text).dropLast.foldl shift d) last
      exact ⟨ts ++ us, hts.trans hus⟩
    · exact ⟨ts, hts⟩

theorem length_pass_lt {d : Draft} (h : (d.pass g tokenize force).text ≠ d.text) :
    (d.pass g tokenize force).text.length < d.text.length := by
  have hpiece := d.pass_text_isInfix g tokenize force
  exact Nat.lt_of_le_of_ne hpiece.length_le fun heq => h (hpiece.eq_of_length heq)

/-- The draft after a number of passes, of which only the first one may force. -/
def passes (force : Bool) (d : Draft) : Nat → Draft
  | 0 => d
  | n + 1 => (d.pass g tokenize force).passes false n

theorem exists_spends_passes : ∀ (n : Nat) (force : Bool) (d : Draft),
    ∃ ts, d.Spends ts (d.passes g tokenize force n)
  | 0, _, d => ⟨[], .refl d⟩
  | n + 1, force, d => by
    obtain ⟨ts, hts⟩ := d.exists_spends_pass g tokenize force
    obtain ⟨us, hus⟩ := exists_spends_passes n false (d.pass g tokenize force)
    exact ⟨ts ++ us, hts.trans hus⟩

/-- The loop: a number of passes each of which shortens the text, and one more, which leaves the
text as it is. -/
structure Stops (force : Bool) (d : Draft) (n : Nat) : Prop where
  shortens : ∀ m < n,
    (d.passes g tokenize force (m + 1)).text.length < (d.passes g tokenize force m).text.length
  leaves : (d.passes g tokenize force (n + 1)).text = (d.passes g tokenize force n).text

variable {g tokenize force}

theorem Stops.succ {n : Nat} (h : (d.pass g tokenize force).text ≠ d.text)
    (hn : Stops g tokenize false (d.pass g tokenize force) n) :
    Stops g tokenize force d (n + 1) where
  shortens
    | 0, _ => length_pass_lt g tokenize force h
    | m + 1, hm => hn.shortens m (by omega)
  leaves := hn.leaves

/-- Every pass before the last one costs a character. -/
theorem Stops.length_le {n : Nat} (h : Stops g tokenize force d n) : n ≤ d.text.length := by
  have hdrop : ∀ m ≤ n, m + (d.passes g tokenize force m).text.length ≤ d.text.length := by
    intro m hm
    induction m with
    | zero => simp [passes]
    | succ m ih =>
      have := h.shortens m hm
      have := ih (by omega)
      omega
  have := hdrop n (Nat.le_refl n)
  omega

theorem process_eq_passes (g : Grammar) (tokenize : Text → List Token) (force : Bool) (d : Draft) :
    ∃ n, Stops g tokenize force d n ∧
      d.process g tokenize force = d.passes g tokenize force (n + 1) := by
  fun_induction process with
  | case1 force d d' h => exact ⟨0, ⟨by simp, h⟩, rfl⟩
  | case2 force d d' h ih =>
    obtain ⟨n, hn, heq⟩ := ih
    exact ⟨n + 1, hn.succ h, heq⟩

/-- Whatever the grammar and the tokens a text is cut into, repeated passes come to a stop. -/
theorem process_stops (g : Grammar) (tokenize : Text → List Token) (force : Bool)
    (tokens : List Token) (t : Text) :
    let d : Draft := ⟨tokens, t⟩
    let d' := d.process g tokenize force
    (∃ n ≤ t.length, d' = d.passes g tokenize force (n + 1) ∧ Stops g tokenize force d n) ∧
      ∃ pushed, d'.tokens = tokens ++ pushed ∧ d'.text <:+: t ∧
        (pushed.flatMap (·.literal)).length + d'.text.length ≤ t.length := by
  intro d d'
  obtain ⟨n, hn, heq⟩ := process_eq_passes g tokenize force d
  obtain ⟨pushed, h⟩ := d.exists_spends_passes g tokenize (n + 1) force
  rw [← heq] at h
  exact ⟨⟨n, hn.length_le, heq, hn⟩, pushed, h.tokens, h.isInfix, h.length_le⟩

end Draft

end Typeahead
