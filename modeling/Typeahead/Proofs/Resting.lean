import Typeahead.Proofs.Coherence
import Typeahead.Proofs.Entering
import Typeahead.Proofs.Layout

/-!
# What is left of a text

Reading goes on until a pass takes nothing more off the text. A pass takes nothing if nothing is
due, or if the text is stuck at its front (`Draft.pass_eq_self_iff`). Which texts these are can be
said without passes (`Rests`, `Draft.process_eq_self_iff`): a brace stands in front, or there is at
most one token, which is no parenthesis and has no blank behind it unless it is open.

What reading leaves behind is such a text (`Draft.rests_process`), so every call leaves a session
with one (`Session.rests_after_calls`).
-/

namespace Typeahead

open Token

/-- A text from which nothing more is taken: a brace stands in front of it, or it holds at most one
token. That token is no parenthesis, and if a blank ends the text it is a string or a parameter
that lacks its closing delimiter. -/
def Rests (t : Text) : Prop :=
  (Text.trimStart t).head? = some '\x7d' ∨
    (scan .standard t).length ≤ 1 ∧ ∀ token ∈ scan .standard t,
      token.kind ≠ .openParen ∧ token.kind ≠ .closeParen ∧
        (Text.endsBlank t = true → leavesOpen .standard t = true ∧
          (token.kind = .string ∨ token.kind = .parameter))

instance (t : Text) : Decidable (Rests t) := inferInstanceAs (Decidable (_ ∨ _))

theorem rests_nil : Rests [] := by decide

section

variable {t u : Text} {ts : List Token}

theorem Cut.length_lt (h : Cut t ts u) (hne : ts ≠ []) : u.length < t.length := by
  cases h with
  | nil => exact absurd rfl hne
  | @cons _ rest _ token _ hs he hcut =>
    have hsuffix := hcut.isSuffix.length_le
    have htrim := (Text.trimStart_isSuffix t).length_le
    have hpos := List.length_pos_iff.2 he.literal_ne_nil
    rw [hs, List.length_append] at htrim
    omega

/-- A text that ends inside its only token is stuck. -/
theorem stuck_of_leavesOpen (hopen : leavesOpen .standard t = true)
    (hlen : (scan .standard t).length ≤ 1) : Stuck t := by
  cases front t with
  | blank hb =>
    rw [leavesOpen_of_blank hb] at hopen
    cases hopen
  | @token token u hs he =>
    rw [← leavesOpen_trimStart, hs, he.leavesOpen_append] at hopen
    rw [← scan_trimStart, hs, he.scan_append, List.length_cons] at hlen
    exact absurd (List.length_eq_zero_iff.1 (by omega)) (scan_ne_nil_of_leavesOpen hopen)
  | stuck hs => exact hs

theorem isComplete_iff {token : Token} : Draft.isComplete .standard t token = true ↔
    token.kind = .openParen ∨ token.kind = .closeParen ∨ Text.endsBlank t = true := by
  have hsingle : ∀ k, (Grammar.standardRule k).single = true ↔
      k = .openParen ∨ k = .closeParen := by
    intro k
    cases k <;> decide
  rw [Draft.isComplete, Grammar.get?_standard, Option.any_some, Bool.or_eq_true, hsingle, or_assoc]

end

namespace Draft

variable {d : Draft} {t : Text} {force : Bool}

theorem due_false_eq_nil_iff : due false t = [] ↔ (scan .standard t).length ≤ 1 ∧
    ∀ token ∈ scan .standard t, isComplete .standard t token = false := by
  unfold due
  rcases List.eq_nil_or_concat (scan .standard t) with hscan | ⟨init, last, hscan⟩
  · simp [hscan]
  · rw [hscan, List.concat_eq_append, List.getLast?_concat, List.dropLast_concat]
    cases h : isComplete .standard t last
    · rcases init with _ | ⟨first, init⟩ <;> simp [h]
    · simp [h]

/-- A pass takes nothing off a text if nothing is due, or if what is due cannot be taken off. -/
theorem pass_eq_self_iff : d.pass .standard (scan .standard) force = d ↔
    due force d.text = [] ∨ Stuck d.text := by
  constructor
  · intro h
    obtain ⟨ts, u, -, hcut, hstop, hpass⟩ := d.pass_eq_cut force
    have htokens := congrArg Draft.tokens (h.symm.trans hpass)
    obtain rfl : ts = [] := by simpa using htokens
    cases hcut
    exact hstop.imp_left Eq.symm
  · rintro (hdue | hstuck) <;> rw [pass_eq_foldl]
    · rw [hdue]
      rfl
    · exact hstuck.foldl_shift rfl fun token hm => (due_isPrefix force d.text).subset hm

theorem rests_iff : Rests t ↔ due false t = [] ∨ Stuck t := by
  constructor
  · rintro (hbrace | ⟨hlen, htoken⟩)
    · obtain ⟨u, hu⟩ := List.head?_eq_some_iff.1 hbrace
      exact .inr (.brace hu)
    · by_cases hopen : leavesOpen .standard t = true
      · exact .inr (stuck_of_leavesOpen hopen hlen)
      · refine .inl (due_false_eq_nil_iff.2 ⟨hlen, fun token hm => ?_⟩)
        obtain ⟨hopener, hcloser, hblank⟩ := htoken token hm
        rw [← Bool.not_eq_true, isComplete_iff]
        rintro (h | h | h)
        · exact hopener h
        · exact hcloser h
        · exact hopen (hblank h).1
  · rintro (hdue | hstuck)
    · obtain ⟨hlen, htoken⟩ := due_false_eq_nil_iff.1 hdue
      refine .inr ⟨hlen, fun token hm => ?_⟩
      have h := htoken token hm
      rw [← Bool.not_eq_true, isComplete_iff, not_or, not_or] at h
      exact ⟨h.1, h.2.1, fun hblank => absurd hblank h.2.2⟩
    · cases hstuck with
      | brace hs => exact .inl (by rw [hs]; rfl)
      | @unclosed token q hlit hscan hopen =>
        have hkind := kind_of_leavesOpen hopen hscan
        rw [Rests, hscan]
        refine .inr ⟨Nat.le_refl 1, fun token' hm => ?_⟩
        rw [List.mem_singleton.1 hm]
        refine ⟨?_, ?_, fun _ => ⟨hopen, hkind⟩⟩ <;> rcases hkind with h | h <;> simp [h]

/-- A pass that leaves the text as it is has taken nothing. -/
theorem pass_eq_self_of_text (h : (d.pass .standard (scan .standard) force).text = d.text) :
    d.pass .standard (scan .standard) force = d := by
  obtain ⟨ts, u, -, hcut, -, hpass⟩ := d.pass_eq_cut force
  rw [hpass] at h ⊢
  by_cases hts : ts = []
  · simp [hts]
  · simp only [if_neg hts] at h
    have hlt := hcut.length_lt hts
    have hle := Text.trim_length_le u
    rw [h] at hle
    omega

/-- What is left when reading is done rests. -/
theorem rests_process (force : Bool) (d : Draft) :
    Rests (d.process .standard (scan .standard) force).text := by
  fun_induction process with
  | case1 force d d' h =>
    have hself : d.pass .standard (scan .standard) force = d := pass_eq_self_of_text h
    rw [h]
    refine rests_iff.2 ((pass_eq_self_iff.1 hself).imp_left fun hdue => ?_)
    cases force with
    | false => exact hdue
    | true =>
      -- Nothing is due even by force, so the text holds no token.
      have hscan : scan .standard d.text = [] := by simpa [due] using hdue
      exact List.prefix_nil.1 (hscan ▸ due_isPrefix false d.text)
  | case2 force d d' _ ih => exact ih

/-- The texts that rest are those that reading leaves as they are. -/
theorem process_eq_self_iff : d.process .standard (scan .standard) false = d ↔ Rests d.text := by
  constructor
  · intro h
    rw [← h]
    exact d.rests_process false
  · exact fun h => process_of_pass (pass_eq_self_iff.2 (rests_iff.1 h))

-- A blank in an open string is kept, and a brace holds back what would be committed otherwise.
example : Rests ['"', 'a', ' '] ∧ Rests [' ', '\x7d', 'a', ' ', '('] ∧ ¬ Rests ['a', ' '] := by
  decide

end Draft

namespace Session

variable {s : Session}

theorem Plain.rests_answer (h : s.Plain) (hs : Rests s.draft.text) (call : Call) :
    Rests (s.answer call).session.draft.text := by
  have hprocess : ∀ force d, Rests (s.process force d).text := fun force d => by
    rw [h.process]
    exact d.rests_process force
  rw [s.answer_draft]
  cases call with
  | setText t =>
    simp only [draftAfter]
    split_ifs
    · exact hs
    · exact hprocess _ _
  | commit => exact hprocess _ _
  | pop =>
    simp only [draftAfter]
    cases s.draft.tokens.getLast? with
    | none => exact rests_nil
    | some token => exact hprocess _ _
  | clear => exact rests_nil
  | setRoot root => exact hs

/-- Whatever a session went through, its text rests, and to read it again changes nothing. -/
theorem rests_after_calls (validator : Grammar → List Token → Except QueryError (Option Tree))
    (schema : Option Schema) (options : Options) (root : Option Text) (calls : List Call) :
    let s := (start { validator, schema, options } root).after calls
    Rests s.draft.text ∧ s.process false s.draft = s.draft := by
  intro s
  have hstart := plain_start validator schema options root
  obtain ⟨hplain, hrests⟩ : s.Plain ∧ Rests s.draft.text :=
    after_induction (P := fun s => s.Plain ∧ Rests s.draft.text)
      (fun _ call h => ⟨h.1.answer call, h.1.rests_answer h.2 call⟩) calls
      ⟨hstart, by rw [start_draft]; exact rests_nil⟩
  rw [hplain.process]
  exact ⟨hrests, Draft.process_eq_self_iff.2 hrests⟩

end Session

end Typeahead
