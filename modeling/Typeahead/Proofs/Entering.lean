import Typeahead.Proofs.Retention
import Typeahead.Proofs.Typing

/-!
# Entering a token and taking it back

The literal of a token that was read to its end is that token and nothing else. So a session that is
given the literal and told to commit has one token more and an empty text, whatever was committed
before (`Session.Plain.enter`), also if the literal is already the text or commits by itself.

Without its last character the literal holds no finished token
(`Token.EndsBefore.reading_dropLast`), and a text with no finished token is left as it is
(`Draft.process_of_reading`). So taking a token back leaves exactly that much of it, and to type the
last character again and commit brings the token back (`Session.pop_undoes_commit`).
-/

namespace Typeahead

open Token

namespace Token

variable {token : Token} {t : Text}

theorem pending_eq_none_of_reading {g : Grammar} {pending : Option Pending} {c : Char}
    (h : reading g pending [c] = ([], none)) : pending = none := by
  rcases pending with _ | p
  · rfl
  · simp only [reading, scanChar] at h
    split_ifs at h <;> simp at h

/-- A text that is one token is as long as its literal at least, if no brace stands in front. -/
theorem length_literal_le_of_reading (h : reading .standard none t = ([token], none))
    (hbrace : ∀ u, Text.trimStart t ≠ '\x7d' :: u) : token.literal.length ≤ t.length := by
  have hscan : scan .standard t = [token] ++ [] := by rw [scan_eq, h]; rfl
  obtain ⟨ts, u, hpre, hcut, hstop⟩ := exists_cut hscan
  cases hcut with
  | nil =>
    rcases hstop with hnil | ⟨hu⟩ | ⟨-, -, hopen⟩
    · cases hnil
    · exact absurd hu (hbrace _)
    · rw [leavesOpen, h] at hopen
      cases hopen
  | @cons _ rest _ first ts ht _ _ =>
    obtain ⟨rfl, -⟩ := List.cons_prefix_cons.1 hpre
    have hle := (Text.trimStart_isSuffix t).length_le
    rw [ht, List.length_append] at hle
    omega

namespace EndsBefore

theorem literal_ne_nil (h : token.EndsBefore t) : token.literal ≠ [] := by
  obtain ⟨c, rest, hfirst, -⟩ := h.solid.first
  simp [hfirst]

theorem cut_literal (h : token.EndsBefore t) : Cut token.literal [token] [] := by
  obtain ⟨c, rest, hfirst, hc, -⟩ := h.solid.first
  refine .cons ?_ (h.of_isPrefix List.nil_prefix) .nil
  rw [List.append_nil, hfirst, Text.trimStart_cons_of_not_blank hc]

/-- The last character of a literal finishes its token, or nothing does. -/
theorem reading_dropLast (h : token.EndsBefore t) :
    (reading .standard none token.literal.dropLast).1 = [] := by
  obtain ⟨c, rest, hfirst, hc, hbrace⟩ := h.solid.first
  obtain ⟨init, d, hlast, -⟩ := h.solid.last
  rw [hlast, List.dropLast_concat]
  rcases hinit : (reading .standard none init).1 with _ | ⟨first, others⟩
  · rfl
  have hread := Token.reading_append (g := .standard) [d] init none
  rw [← hlast, hinit] at hread
  cases h with
  | plain hr _ _ _ =>
    rw [hr] at hread
    exact absurd (congrArg Prod.fst hread) (by simp)
  | closed hr =>
    rw [hr, Prod.mk.injEq, List.cons_append, List.cons.injEq, List.nil_eq_append_iff] at hread
    obtain ⟨⟨rfl, rfl, hrest⟩, hnone⟩ := hread
    have hinit : reading .standard none init = ([token], none) :=
      Prod.ext hinit (pending_eq_none_of_reading (Prod.ext hrest hnone.symm))
    have hle : token.literal.length ≤ init.length := by
      refine length_literal_le_of_reading hinit fun u hu => ?_
      rcases init with _ | ⟨c', init⟩
      · cases hu
      · rw [hlast, List.cons_append, List.cons.injEq] at hfirst
        obtain ⟨rfl, -⟩ := hfirst
        rw [Text.trimStart_cons_of_not_blank hc, List.cons.injEq] at hu
        exact hbrace hu.1
    rw [hlast, List.length_append, List.length_singleton] at hle
    omega

end EndsBefore

end Token

namespace Draft

variable {t : Text} {token : Token} {force : Bool}

theorem process_of_pass {d : Draft} (h : d.pass .standard (scan .standard) force = d) :
    d.process .standard (scan .standard) force = d := by
  rw [process]
  simp only [h, dif_pos]

theorem process_nil (ts : List Token) (force : Bool) :
    (⟨ts, []⟩ : Draft).process .standard (scan .standard) force = ⟨ts, []⟩ :=
  process_of_pass rfl

/-- A text that holds no finished token is left as it is. -/
theorem process_of_reading {d : Draft} (h : (reading .standard none d.text).1 = []) :
    d.process .standard (scan .standard) false = d := by
  obtain ⟨ts, u, hpre, hcut, -, hpass⟩ := d.pass_eq_cut false
  have hts : ts = [] := by
    by_contra hne
    have hlen : (scan .standard d.text).length ≤ 1 := by
      rw [scan_eq, h]
      cases (reading .standard none d.text).2 <;> simp
    -- Only the pending token can have been cut off, so it was complete.
    have hall : ts = scan .standard d.text :=
      (hpre.trans (due_isPrefix false d.text)).eq_of_length_le
        (hlen.trans (List.length_pos_iff.2 hne))
    have hopen : leavesOpen .standard d.text = false := by
      have hscan := hcut.scan
      rw [← hall, List.self_eq_append_right] at hscan
      rw [hcut.leavesOpen]
      by_contra hopen
      exact scan_ne_nil_of_leavesOpen (Bool.of_not_eq_false hopen) hscan
    have hdue : due false d.text = scan .standard d.text :=
      (due_isPrefix false d.text).eq_of_length_le (hall ▸ hpre.length_le)
    rw [reading_of_due hopen hdue, ← hall] at h
    exact hne h
  rw [hts, List.append_nil, if_pos rfl] at hpass
  exact process_of_pass hpass

theorem pass_literal (h : token.EndsBefore []) (hdue : due force token.literal = [token])
    (ts : List Token) : (⟨ts, token.literal⟩ : Draft).pass .standard (scan .standard) force =
      ⟨ts ++ [token], []⟩ := by
  rw [pass_eq_foldl, hdue, (h.cut_literal.foldl_shift rfl).1]
  rfl

theorem process_literal_of_due (h : token.EndsBefore []) (hdue : due force token.literal = [token])
    (ts : List Token) : (⟨ts, token.literal⟩ : Draft).process .standard (scan .standard) force =
      ⟨ts ++ [token], []⟩ := by
  rw [process]
  simp only [pass_literal h hdue]
  rw [dif_neg h.literal_ne_nil.symm, process_nil]

/-- Entering a literal commits its token at once or leaves it in the text. -/
theorem process_literal (h : token.EndsBefore []) (ts : List Token) :
    (⟨ts, token.literal⟩ : Draft).process .standard (scan .standard) false = ⟨ts ++ [token], []⟩ ∨
      (⟨ts, token.literal⟩ : Draft).process .standard (scan .standard) false =
        ⟨ts, token.literal⟩ := by
  by_cases hdue : due false token.literal = [token]
  · exact .inl (process_literal_of_due h hdue ts)
  · refine .inr (process_of_pass ?_)
    have hnil : due false token.literal = [] := by
      unfold due at hdue ⊢
      rw [h.scan_literal] at hdue ⊢
      split_ifs at hdue ⊢
      · exact absurd rfl hdue
      · rfl
    rw [pass_eq_foldl, hnil]
    rfl

theorem process_literal_force (h : token.EndsBefore []) (ts : List Token) :
    (⟨ts, token.literal⟩ : Draft).process .standard (scan .standard) true = ⟨ts ++ [token], []⟩ :=
  process_literal_of_due h (by rw [due, Bool.true_or, if_pos rfl, h.scan_literal]) ts

end Draft

namespace Session

variable {s : Session} {token : Token}

theorem Plain.setText_draft_eq (h : s.Plain) (t : Text) : (s.setText t).session.draft = s.draft ∧
    t = s.draft.text ∨ (s.setText t).session.draft =
      (⟨s.draft.tokens, t⟩ : Draft).process .standard (scan .standard) false := by
  by_cases ht : t = s.draft.text
  · rw [setText, if_pos ht, settled_session]
    exact .inl ⟨rfl, ht⟩
  · exact .inr (h.setText_draft ht)

/-- To enter a literal and commit it adds its token and leaves no text. -/
theorem Plain.enter (h : s.Plain) (hs : s.Settled) (ht : token.EndsBefore []) :
    ∃ s₁ s₂, next (s.setText token.literal) = .ok s₁ ∧ next s₁.commit = .ok s₂ ∧
      s₂.draft = ⟨s.draft.tokens ++ [token], []⟩ := by
  have hplain : (s.setText token.literal).session.Plain := h.answer (.setText token.literal)
  have hsettled : (s.setText token.literal).session.Settled := hs.answer (.setText token.literal)
  refine ⟨_, _, h.next_answer hs (.setText token.literal), hplain.next_answer hsettled .commit, ?_⟩
  have hcommit := hplain.commit_draft
  have hdraft : (s.setText token.literal).session.draft = ⟨s.draft.tokens ++ [token], []⟩ ∨
      (s.setText token.literal).session.draft = ⟨s.draft.tokens, token.literal⟩ := by
    rcases h.setText_draft_eq token.literal with ⟨hsame, htext⟩ | hread
    · rw [hsame, htext]
      exact .inr rfl
    · rw [hread]
      exact Draft.process_literal ht s.draft.tokens
  rcases hdraft with hdraft | hdraft <;> rw [hdraft] at hcommit
  · exact hcommit.trans (Draft.process_nil _ true)
  · exact hcommit.trans (Draft.process_literal_force ht s.draft.tokens)

/-- Taking back the last token leaves the literal without its last character, and typing that
character again and committing brings the token back, whatever the session went through. -/
theorem pop_undoes_commit
    (validator : Grammar → List Token → Except QueryError (Option Tree)) (schema : Option Schema)
    (options : Options) (root : Option Text) (calls : List Call) (init : List Token)
    (token : Token) :
    let s := (start { validator, schema, options } root).after calls
    s.draft.tokens = init ++ [token] →
      ∃ s₁ s₂ s₃ c, next s.pop = .ok s₁ ∧ s₁.draft = ⟨init, token.literal.dropLast⟩ ∧
        token.literal.getLast? = some c ∧ next (s₁.setText (s₁.draft.text ++ [c])) = .ok s₂ ∧
        next s₂.commit = .ok s₃ ∧ s₃.draft = ⟨init ++ [token], []⟩ := by
  intro s htokens
  have hstart := plain_start validator schema options root
  have hplain : s.Plain := hstart.after calls
  have hsettled : s.Settled := (settle_settled _).after calls
  have hread : s.ReadToEnd := hstart.readToEnd_after (by simp [ReadToEnd, start_draft]) calls
  have htoken : token.EndsBefore [] := hread token (by simp [htokens])
  have hpop : s.pop.session.draft = ⟨init, token.literal.dropLast⟩ := by
    have hlast : s.draft.tokens.getLast? = some token := by simp [htokens]
    simp only [pop, hlast]
    rw [settle_draft, hplain.process, htokens, List.dropLast_concat]
    exact Draft.process_of_reading htoken.reading_dropLast
  obtain ⟨text, c, hlast, -⟩ := htoken.solid.last
  have htyped : s.pop.session.draft.text ++ [c] = token.literal := by
    rw [hpop, hlast, List.dropLast_concat]
  obtain ⟨s₂, s₃, hset, hcommit, hdraft⟩ :=
    Plain.enter (s := s.pop.session) (hplain.answer .pop) (hsettled.answer .pop) htoken
  rw [hpop] at hdraft
  rw [← htyped] at hset
  exact ⟨_, s₂, s₃, c, hplain.next_answer hsettled .pop, hpop, by simp [hlast], hset, hcommit,
    hdraft⟩

/-- A string that ends in a blank is not committed again while its closing quote is missing. -/
theorem pop_undoes_commit_string :
    let s := (start {}).after [.setText ['a', ' ', '=', ' ', '\'', 'x', ' ', '\'', ' ']]
    let token : Token := ⟨.string, ['x', ' '], some '\''⟩
    s.draft.tokens = [⟨.property, ['a'], none⟩, ⟨.equal, ['='], none⟩] ++ [token] ∧
      ∃ s₁ s₂ s₃ c, next s.pop = .ok s₁ ∧
        s₁.draft = ⟨[⟨.property, ['a'], none⟩, ⟨.equal, ['='], none⟩], ['\'', 'x', ' ']⟩ ∧
        token.literal.getLast? = some c ∧ next (s₁.setText (s₁.draft.text ++ [c])) = .ok s₂ ∧
        next s₂.commit = .ok s₃ ∧
        s₃.draft = ⟨[⟨.property, ['a'], none⟩, ⟨.equal, ['='], none⟩] ++ [token], []⟩ := by
  intro s token
  have htokens : s.draft.tokens =
      [⟨.property, ['a'], none⟩, ⟨.equal, ['='], none⟩] ++ [token] := by decide +kernel
  exact ⟨htokens, pop_undoes_commit Tree.ofTokens none {} none _ _ token htokens⟩

end Session

end Typeahead
