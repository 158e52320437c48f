import Typeahead.Proofs.Cutting

/-!
# Every character of a text

A text falls into the parts of its tokens and the gaps around them, in order (`Layout`). A part is
the literal of its token, and only blanks and closing braces stand in the gaps. The one exception is
a text that ends inside a string or a parameter: there the part of the last token lacks its closing
delimiter, and nothing follows it (`Token.scan_layout`).

The front of a text is a token, a brace, a token that is open, or nothing but blanks, and each of
them extends a layout of what comes behind (`Layout.Covers`).
-/

namespace Typeahead

/-- A text cut at its tokens: the gap in front, then the part of each token with the gap behind
it. -/
structure Layout where
  lead : Text
  pieces : List (Text × Text)

namespace Layout

/-- The text that was cut. -/
def text (l : Layout) : Text := l.lead ++ l.pieces.flatMap fun p => p.1 ++ p.2

/-- The parts of the tokens. -/
def parts (l : Layout) : List Text := l.pieces.map Prod.fst

/-- What stands before, between and behind the parts. -/
def gaps (l : Layout) : List Text := l.lead :: l.pieces.map Prod.snd

/-- Blanks and closing braces only. -/
def IsGap (t : Text) : Prop := ∀ c ∈ t, Text.isBlank c = true ∨ c = '\x7d'

/-- The layout cuts the text into the parts of these tokens; `isOpen` tells whether the last of them
lacks its closing delimiter. -/
structure Covers (l : Layout) (t : Text) (ts : List Token) (isOpen : Bool) : Prop where
  text_eq : l.text = t
  isGap : ∀ gap ∈ l.gaps, IsGap gap
  closed : isOpen = false → l.parts = ts.map Token.literal
  unclosed : isOpen = true → ∃ init last pieces, ts = init ++ [last] ∧
    (last.kind = .string ∨ last.kind = .parameter) ∧
    l.pieces = pieces ++ [(last.literal.dropLast, [])] ∧
    pieces.map Prod.fst = init.map Token.literal

namespace Covers

variable {l : Layout} {t gap : Text} {ts : List Token} {token : Token} {isOpen : Bool}

theorem of_isGap (h : IsGap gap) : Covers ⟨gap, []⟩ gap [] false where
  text_eq := by simp [text]
  isGap := by simpa [gaps] using h
  closed _ := rfl
  unclosed h := by simp at h

theorem skip (hgap : IsGap gap) (h : l.Covers t ts isOpen) :
    Covers ⟨gap ++ l.lead, l.pieces⟩ (gap ++ t) ts isOpen where
  text_eq := by simp [← h.text_eq, text]
  isGap := by
    have hlead := h.isGap l.lead List.mem_cons_self
    intro u hu
    rcases List.mem_cons.1 hu with rfl | hu
    · intro c hc
      exact (List.mem_append.1 hc).elim (hgap c) (hlead c)
    · exact h.isGap u (List.mem_cons_of_mem _ hu)
  closed := h.closed
  unclosed := h.unclosed

theorem cons (h : l.Covers t ts isOpen) (token : Token) :
    Covers ⟨[], (token.literal, l.lead) :: l.pieces⟩ (token.literal ++ t) (token :: ts) isOpen where
  text_eq := by simp [← h.text_eq, text]
  isGap := by
    intro u hu
    rcases List.mem_cons.1 hu with rfl | hu
    · simp [IsGap]
    · exact h.isGap u hu
  closed hc := by simpa [parts] using h.closed hc
  unclosed ho := by
    obtain ⟨init, last, pieces, rfl, hk, hp, hparts⟩ := h.unclosed ho
    exact ⟨token :: init, last, (token.literal, l.lead) :: pieces, rfl, hk, by simp [hp],
      by simp [hparts]⟩

theorem of_unclosed (hk : token.kind = .string ∨ token.kind = .parameter) :
    Covers ⟨[], [(token.literal.dropLast, [])]⟩ token.literal.dropLast [token] true where
  text_eq := by simp [text]
  isGap := by simp [gaps, IsGap]
  closed h := by simp at h
  unclosed _ := ⟨[], token, [], rfl, hk, rfl, rfl⟩

end Covers

end Layout

namespace Token

theorem leavesOpen_of_blank {t : Text} (h : ∀ c ∈ t, Text.isBlank c = true) :
    leavesOpen .standard t = false := by
  rw [leavesOpen, reading_of_blank h]
  rfl

theorem reading_brace (t : Text) :
    reading .standard none ('\x7d' :: t) = reading .standard none t :=
  reading_none_of_start? rfl t

/-- What is open at the end is a string or a parameter. -/
theorem kind_of_leavesOpen {t : Text} (ho : leavesOpen .standard t = true) {token : Token}
    (h : scan .standard t = [token]) : token.kind = .string ∨ token.kind = .parameter := by
  obtain ⟨p, hp, hc⟩ := exists_pending_of_leavesOpen ho
  have hlast := congrArg List.getLast? h
  rw [scan_eq, hp, Option.toList_some, List.map_singleton, List.getLast?_concat,
    List.getLast?_singleton, Option.some.injEq] at hlast
  obtain ⟨s, c, run, p₀, -, hstart, rfl, -⟩ := reading_pending hp
  subst hlast
  rcases opens_of_start? hstart with _ | _ | _
  · simp [Pending.extend] at hc
  · exact .inl rfl
  · exact .inr rfl

/-- The tokens of a text account for all of its characters but for some blanks and braces. -/
theorem exists_covers : ∀ s : Text,
    ∃ l : Layout, l.Covers s (scan .standard s) (leavesOpen .standard s)
  | s => by
    -- The blanks in front are a gap of their own, so what matters is the text behind them.
    suffices h : ∃ l : Layout,
        l.Covers (Text.trimStart s) (scan .standard s) (leavesOpen .standard s) by
      obtain ⟨l, h⟩ := h
      have hblanks : Layout.IsGap (s.takeWhile Text.isBlank) := fun c hc =>
        .inl (List.mem_takeWhile_imp hc)
      have hcovers := h.skip hblanks
      rw [Text.trimStart, List.takeWhile_append_dropWhile] at hcovers
      exact ⟨_, hcovers⟩
    have hle := (Text.trimStart_isSuffix s).length_le
    cases front s with
    | blank hb =>
      rw [scan_of_blank hb, leavesOpen_of_blank hb, Text.trimStart, List.dropWhile_eq_nil_iff.2 hb]
      exact ⟨_, .of_isGap (by simp [Layout.IsGap])⟩
    | @token token t hs he =>
      obtain ⟨c, rest, hlit, -⟩ := he.solid.first
      have hlt : t.length < s.length := by
        rw [hs, hlit] at hle
        simp at hle
        omega
      obtain ⟨l, hl⟩ := exists_covers t
      rw [← scan_trimStart, ← leavesOpen_trimStart, hs, he.scan_append, he.leavesOpen_append]
      exact ⟨_, hl.cons token⟩
    | stuck hstuck =>
      cases hstuck with
      | @brace t hs =>
        have hlt : t.length < s.length := by
          rw [hs, List.length_cons] at hle
          omega
        obtain ⟨l, hl⟩ := exists_covers t
        have hbrace : Layout.IsGap ['\x7d'] := by simp [Layout.IsGap]
        rw [← scan_trimStart, ← leavesOpen_trimStart, hs, scan_eq, leavesOpen, reading_brace,
          ← scan_eq, ← leavesOpen]
        exact ⟨_, hl.skip hbrace⟩
      | @unclosed token q hlit hscan hopen =>
        have hpart : Text.trimStart s = token.literal.dropLast := by
          rw [← hlit, List.dropLast_concat]
        rw [hpart, hscan, hopen]
        exact ⟨_, .of_unclosed (kind_of_leavesOpen hopen hscan)⟩
termination_by s => s.length

/-- Every text is a gap and then, token by token, the token's part and another gap. Parts are
literals, except that the last token of a text that ends inside a string or a parameter lacks its
closing delimiter, and then nothing follows it. Gaps hold only blanks and closing braces. -/
theorem scan_layout (t : Text) : ∃ l : Layout, l.text = t ∧
    (∀ gap ∈ l.gaps, ∀ c ∈ gap, Text.isBlank c = true ∨ c = '\x7d') ∧
    (leavesOpen .standard t = false → l.parts = (scan .standard t).map literal) ∧
    (leavesOpen .standard t = true → ∃ init last pieces, scan .standard t = init ++ [last] ∧
      (last.kind = .string ∨ last.kind = .parameter) ∧
      l.pieces = pieces ++ [(last.literal.dropLast, [])] ∧
      pieces.map Prod.fst = init.map literal) := by
  obtain ⟨l, h⟩ := exists_covers t
  exact ⟨l, h.text_eq, h.isGap, h.closed, h.unclosed⟩

end Token

end Typeahead
