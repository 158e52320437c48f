import Typeahead.Proofs.Coherence
import Typeahead.Proofs.Entering
import Typeahead.Proofs.GuessCommand
import Typeahead.Proofs.Passes

/-!
# Deleting comes to an end

A draft holds as many characters as its text and the literals of its tokens have. Reading a draft
never adds to them, whatever it commits (`Draft.length_process_le`), so a backspace leaves at least
one character less than there was (`Session.length_backspace_le`): it takes one off the text or off
the literal of a token, and no committed token has an empty literal. To type a character adds one at
most. Hence a text has gone after as many backspaces as it has characters
(`Session.backspaces_exhaust`).
-/

namespace Typeahead

namespace Draft

variable {d : Draft}

/-- The number of characters of a draft, in the literals of its tokens and in its text. -/
def length (d : Draft) : Nat := (d.tokens.flatMap (·.literal)).length + d.text.length

@[simp] theorem length_of_text (t : Text) : (⟨[], t⟩ : Draft).length = t.length := Nat.zero_add _

theorem length_process_le (g : Grammar) (tokenize : Text → List Token) (force : Bool)
    (d : Draft) : (d.process g tokenize force).length ≤ d.length := by
  obtain ⟨n, -, heq⟩ := process_eq_passes g tokenize force d
  obtain ⟨ts, h⟩ := d.exists_spends_passes g tokenize (n + 1) force
  have hle := h.length_le
  simp only [length, heq, h.tokens, List.flatMap_append, List.length_append]
  omega

theorem eq_empty_of_length (hd : ∀ token ∈ d.tokens, token.EndsBefore []) (h : d.length = 0) :
    d = {} := by
  obtain ⟨tokens, text⟩ := d
  simp only [length, Nat.add_eq_zero_iff, List.length_eq_zero_iff] at h
  obtain ⟨hliterals, rfl⟩ := h
  rcases tokens with _ | ⟨token, tokens⟩
  · rfl
  · rw [List.flatMap_cons, List.append_eq_nil_iff] at hliterals
    exact absurd hliterals.1 (hd token List.mem_cons_self).literal_ne_nil

end Draft

namespace Session

variable {s : Session}

/-! ### One keystroke -/

theorem length_setText_le (s : Session) (t : Text) :
    (s.setText t).session.draft.length ≤ (⟨s.draft.tokens, t⟩ : Draft).length := by
  unfold setText
  split_ifs with ht
  · rw [settled_session, ht]
  · rw [settle_draft]
    exact Draft.length_process_le _ _ _ _

theorem length_pop_le (s : Session) {init : List Token} {token : Token}
    (h : s.draft.tokens = init ++ [token]) :
    s.pop.session.draft.length ≤ (⟨init, token.literal.dropLast⟩ : Draft).length := by
  unfold pop
  simp only [h, List.getLast?_concat, List.dropLast_concat]
  rw [settle_draft]
  exact Draft.length_process_le _ _ _ _

theorem length_type_le (s : Session) (c : Char) :
    (s.type c).session.draft.length ≤ s.draft.length + 1 := by
  have hle := s.length_setText_le (s.draft.text ++ [c])
  simp only [Draft.length, List.length_append, List.length_singleton] at hle
  simp only [type, Draft.length]
  omega

theorem length_backspace_le (hs : s.ReadToEnd) :
    s.backspace.session.draft.length ≤ s.draft.length - 1 := by
  unfold backspace
  split_ifs with htext htokens
  · have hle := s.length_setText_le s.draft.text.dropLast
    have hpos := List.length_pos_iff.2 htext
    simp only [Draft.length, List.length_dropLast] at hle ⊢
    omega
  · rcases List.eq_nil_or_concat s.draft.tokens with hnil | ⟨init, token, hlast⟩
    · exact absurd hnil htokens
    rw [List.concat_eq_append] at hlast
    have hle := s.length_pop_le hlast
    have hpos := List.length_pos_iff.2 (hs token (by simp [hlast])).literal_ne_nil
    simp only [Draft.length, hlast, List.flatMap_append, List.flatMap_singleton,
      List.length_append, List.length_dropLast] at hle ⊢
    omega
  · rw [settled_session]
    simp only [ne_eq, not_not] at htext htokens
    simp [Draft.length, htext, htokens]

/-! ### Many keystrokes -/

/-- A settled session in the standard grammar, all of whose tokens were read to their end. -/
structure Legible (s : Session) : Prop extends s.Ready where
  readToEnd : s.ReadToEnd

namespace Legible

theorem start (validator : Grammar → List Token → Except QueryError (Option Tree))
    (schema : Option Schema) (options : Options) (root : Option Text) :
    (Session.start { validator, schema, options } root).Legible := by
  obtain ⟨hplain, hsettled, hdraft⟩ := fresh_start validator schema options root
  exact ⟨⟨hplain, hsettled⟩, by simp [ReadToEnd, hdraft]⟩

theorem answer (h : s.Legible) (call : Call) : (s.answer call).session.Legible :=
  ⟨⟨h.plain.answer call, h.settled.answer call⟩, h.plain.readToEnd_answer h.readToEnd call⟩

theorem after (h : s.Legible) (calls : List Call) : (s.after calls).Legible :=
  after_induction (fun _ call h => h.answer call) calls h

theorem next_backspace (h : s.Legible) :
    next s.backspace = .ok s.backspace.session ∧ s.backspace.session.Legible := by
  unfold backspace
  split_ifs
  · exact ⟨h.plain.next_answer h.settled (.setText _), h.answer (.setText _)⟩
  · exact ⟨h.plain.next_answer h.settled .pop, h.answer .pop⟩
  · rw [h.plain.next_settled h.settled, settled_session]
    exact ⟨rfl, h⟩

theorem typeAll : ∀ {s : Session} (t : Text), s.Legible →
    ∃ s', s.typeAll t = .ok s' ∧ s'.Legible ∧ s'.draft.length ≤ s.draft.length + t.length
  | s, [], h => ⟨s, rfl, h, Nat.le_refl _⟩
  | s, c :: t, h => by
    have hnext : next (s.type c) = .ok (s.type c).session :=
      h.plain.next_answer h.settled (.setText (s.draft.text ++ [c]))
    have h' : (s.type c).session.Legible := h.answer (.setText (s.draft.text ++ [c]))
    obtain ⟨s', htyped, hs', hle⟩ := h'.typeAll t
    have hone := s.length_type_le c
    refine ⟨s', ?_, hs', ?_⟩
    · simp only [Session.typeAll, hnext, htyped]
    · rw [List.length_cons]
      omega

theorem backspaces : ∀ {s : Session} (n : Nat), s.Legible →
    ∃ s', s.backspaces n = .ok s' ∧ s'.Legible ∧ s'.draft.length ≤ s.draft.length - n
  | s, 0, h => ⟨s, rfl, h, Nat.le_refl _⟩
  | s, n + 1, h => by
    simp only [Session.backspaces]
    split_ifs with hempty
    · exact ⟨s, rfl, h, by simp [Draft.length, hempty]⟩
    · obtain ⟨hnext, h'⟩ := h.next_backspace
      obtain ⟨s', hdeleted, hs', hle⟩ := h'.backspaces n
      have hone := length_backspace_le h.readToEnd
      refine ⟨s', ?_, hs', by omega⟩
      simp only [hnext, hdeleted]

/-- What is entered in an empty session goes again, character by character. -/
theorem replay (h : s.Legible) (hempty : s.draft = {}) (t : Text) (keystrokes : Bool) :
    ∃ s', s.replay t false keystrokes t.length = .ok s' ∧ s'.draft = {} := by
  have hentered : ∃ s', (if keystrokes then s.typeAll t else next (s.setText t)) = .ok s' ∧
      s'.Legible ∧ s'.draft.length ≤ t.length := by
    cases keystrokes
    · have hle := s.length_setText_le t
      rw [hempty, Draft.length_of_text] at hle
      exact ⟨_, h.plain.next_answer h.settled (.setText t), h.answer (.setText t), hle⟩
    · simpa [hempty] using h.typeAll t
  obtain ⟨s₁, hs₁, h₁, hle₁⟩ := hentered
  obtain ⟨s₂, hs₂, h₂, hle₂⟩ := h₁.backspaces t.length
  exact ⟨s₂, replay_eq hs₁ hs₂, Draft.eq_empty_of_length h₂.readToEnd (by omega)⟩

end Legible

/-- Whatever a session went through, a backspace leaves fewer characters in it, unless nothing is
left: then it changes nothing. So a text that is entered in a new session, at once or character by
character, is gone after as many backspaces as it has characters. -/
theorem backspaces_exhaust (validator : Grammar → List Token → Except QueryError (Option Tree))
    (schema : Option Schema) (options : Options) (root : Option Text) :
    let fresh := start { validator, schema, options } root
    (∀ calls : List Call, let s := fresh.after calls
      ∃ s', next s.backspace = .ok s' ∧
        (s.draft = {} ∧ s' = s ∨ s.draft ≠ {} ∧ s'.draft.length < s.draft.length)) ∧
    ∀ (t : Text) (keystrokes : Bool),
      ∃ s', fresh.replay t false keystrokes t.length = .ok s' ∧ s'.draft = {} := by
  intro fresh
  have hfresh : fresh.Legible := .start validator schema options root
  refine ⟨fun calls => ?_, hfresh.replay (start_draft _ _)⟩
  intro s
  have h : s.Legible := hfresh.after calls
  refine ⟨_, h.next_backspace.1, ?_⟩
  by_cases hempty : s.draft = {}
  · refine .inl ⟨hempty, ?_⟩
    simp [backspace, hempty, settled_session]
  · have hpos : s.draft.length ≠ 0 := fun hzero =>
      hempty (Draft.eq_empty_of_length h.readToEnd hzero)
    have hle := length_backspace_le h.readToEnd
    exact .inr ⟨hempty, by omega⟩

end Session

end Typeahead
