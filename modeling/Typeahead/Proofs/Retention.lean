import Typeahead.Proofs.Cutting

/-!
# What is read is not lost

Reading a draft moves tokens from its text to the committed ones, and the tokens moved followed by
those of the text that is left are the tokens there were (`Draft.Reads`). Since the text is trimmed
when a token is taken off it, blanks at the end of a string that is still being typed are lost then,
and nothing else (`Session.setText_keeps_tokens`).

A committed token was read to its end, so its literal is read as that token again. Blanks separate
the parts of the full text of a session, so reading it gives back the committed tokens, those of
the text being typed and the closing parentheses (`Session.fullText_reads_back`).
-/

namespace Typeahead

open Token

namespace Draft

variable {d d' d'' : Draft} {ts us : List Token}

/-- The second draft is the first one with some more tokens committed. They were read to their end,
and unless there are none the text has been trimmed. -/
structure Reads (d : Draft) (ts : List Token) (d' : Draft) : Prop where
  tokens : d'.tokens = d.tokens ++ ts
  endsBefore : ∀ token ∈ ts, token.EndsBefore []
  text : ts = [] ∧ d'.text = d.text ∨ ts ≠ [] ∧ Text.trimEnd d'.text = d'.text ∧
    ts ++ scan .standard d'.text = scan .standard (Text.trimEnd d.text)

theorem Reads.trans (h : d.Reads ts d') (h' : d'.Reads us d'') : d.Reads (ts ++ us) d'' where
  tokens := by rw [h'.tokens, h.tokens, List.append_assoc]
  endsBefore token hm := (List.mem_append.1 hm).elim (h.endsBefore token) (h'.endsBefore token)
  text := by
    rcases h.text with ⟨rfl, ht⟩ | ⟨hts, hend, ht⟩
    · simpa [ht] using h'.text
    · have hne : ts ++ us ≠ [] := fun h => hts (List.append_eq_nil_iff.1 h).1
      rcases h'.text with ⟨rfl, hu⟩ | ⟨-, hend', hu⟩
      · rw [hu, List.append_nil]
        exact .inr ⟨hts, hend, ht⟩
      · rw [hend] at hu
        exact .inr ⟨hne, hend', by rw [List.append_assoc, hu, ht]⟩

theorem Reads.forall_tokens (h : d.Reads ts d') (hd : ∀ token ∈ d.tokens, token.EndsBefore []) :
    ∀ token ∈ d'.tokens, token.EndsBefore [] := by
  rw [h.tokens, List.forall_mem_append]
  exact ⟨hd, h.endsBefore⟩

theorem reads_pass (force : Bool) (d : Draft) :
    ∃ ts, d.Reads ts (d.pass .standard (scan .standard) force) := by
  obtain ⟨ts, u, -, hcut, -, hpass⟩ := d.pass_eq_cut force
  refine ⟨ts, ⟨by rw [hpass], hcut.endsBefore, ?_⟩⟩
  rw [hpass]
  by_cases hts : ts = []
  · exact .inl ⟨hts, if_pos hts⟩
  · have htrim : Text.trim u = Text.trimStart (Text.trimEnd u) := (Text.trimStart_trimEnd u).symm
    simp only [if_neg hts]
    refine .inr ⟨hts, List.rdropWhile_idempotent _ _, ?_⟩
    rw [hcut.trimEnd.scan, htrim, scan_trimStart]

theorem reads_process (force : Bool) (d : Draft) :
    ∃ ts, d.Reads ts (d.process .standard (scan .standard) force) := by
  fun_induction process with
  | case1 force d d' => exact reads_pass force d
  | case2 force d d' _ ih =>
    obtain ⟨ts, hts⟩ := reads_pass force d
    obtain ⟨us, hus⟩ := ih
    exact ⟨ts ++ us, hts.trans hus⟩

/-- The tokens of the text, now committed or still in the text. Blanks are missing at the end of a
token that is open and no longer the first one. -/
theorem Reads.append_scan (h : d.Reads ts d') :
    (leavesOpen .standard d.text = false ∨ ts = []) ∧
        ts ++ scan .standard d'.text = scan .standard d.text ∨
      leavesOpen .standard d.text = true ∧ ts ≠ [] ∧
        ∃ init last, scan .standard d.text = init ++ [last] ∧ ts ++ scan .standard d'.text =
          init ++ [{ last with value := Text.trimEnd last.value }] := by
  rcases h.text with ⟨rfl, ht⟩ | ⟨hts, -, ht⟩
  · rw [ht]
    exact .inl ⟨.inr rfl, rfl⟩
  · rcases hopen : leavesOpen .standard d.text
    · exact .inl ⟨.inl rfl, ht.trans (scan_trimEnd hopen)⟩
    · obtain ⟨init, last, hscan, htrim⟩ := scan_trimEnd_of_leavesOpen hopen
      exact .inr ⟨rfl, hts, init, last, hscan, ht.trans htrim⟩

end Draft

/-! ### Setting the text -/

namespace Session

variable {s : Session}

theorem Plain.reads_setText (h : s.Plain) (t : Text) :
    ∃ ts, (⟨s.draft.tokens, t⟩ : Draft).Reads ts (s.setText t).session.draft := by
  by_cases ht : t = s.draft.text
  · rw [setText, if_pos ht, settled_session, ht]
    exact ⟨[], (List.append_nil _).symm, by simp, .inl ⟨rfl, rfl⟩⟩
  · rw [h.setText_draft ht]
    exact Draft.reads_process false _

/-- Whatever a session went through, a text that is set is committed or still there, token by token.
Only if it ends inside a string or a parameter, behind tokens that are committed, the blanks at the
end of that last token's value are lost. -/
theorem setText_keeps_tokens
    (validator : Grammar → List Token → Except QueryError (Option Tree)) (schema : Option Schema)
    (options : Options) (root : Option Text) (calls : List Call) (t : Text) :
    let s := (start { validator, schema, options } root).after calls
    let d := (s.setText t).session.draft
    ∃ committed, d.tokens = s.draft.tokens ++ committed ∧
      ((leavesOpen .standard t = false ∨ committed = []) ∧
          committed ++ scan .standard d.text = scan .standard t ∨
        leavesOpen .standard t = true ∧ committed ≠ [] ∧
          ∃ init last, scan .standard t = init ++ [last] ∧ committed ++ scan .standard d.text =
            init ++ [{ last with value := Text.trimEnd last.value }]) := by
  have hplain : ((start { validator, schema, options } root).after calls).Plain :=
    (plain_start validator schema options root).after calls
  obtain ⟨ts, hreads⟩ := hplain.reads_setText t
  exact ⟨ts, hreads.tokens, hreads.append_scan⟩

/-- The blank at the end of an open string is lost when the token before it is committed. -/
theorem setText_trims_open_string :
    ¬ ∃ committed, ((start {}).setText ['a', ' ', '"', 'b', ' ']).session.draft.tokens =
        (start {}).draft.tokens ++ committed ∧
      committed ++ scan .standard
          ((start {}).setText ['a', ' ', '"', 'b', ' ']).session.draft.text =
        scan .standard ['a', ' ', '"', 'b', ' '] := by
  rintro ⟨committed, htokens, hscan⟩
  have hleft : ((start {}).setText ['a', ' ', '"', 'b', ' ']).session.draft.text = ['"', 'b'] := by
    decide +kernel
  have hread : ((start {}).setText ['a', ' ', '"', 'b', ' ']).session.draft.tokens =
      [⟨.property, ['a'], none⟩] := by decide +kernel
  rw [start_draft, hread] at htokens
  rw [hleft, ← show _ = committed from htokens] at hscan
  exact absurd hscan (by decide)

/-- Every committed token was read to its end. -/
def ReadToEnd (s : Session) : Prop := ∀ token ∈ s.draft.tokens, token.EndsBefore []

theorem Plain.readToEnd_settle (h : s.Plain) {force : Bool} {d : Draft}
    (hd : ∀ token ∈ d.tokens, token.EndsBefore []) :
    { s with draft := s.process force d }.settle.session.ReadToEnd := by
  obtain ⟨ts, hreads⟩ := d.reads_process force
  rw [ReadToEnd, settle_draft, h.process]
  exact hreads.forall_tokens hd

theorem Plain.readToEnd_answer (h : s.Plain) (hs : s.ReadToEnd) (call : Call) :
    (s.answer call).session.ReadToEnd := by
  cases call with
  | setText t =>
    obtain ⟨ts, hreads⟩ := h.reads_setText t
    exact hreads.forall_tokens hs
  | commit => exact h.readToEnd_settle hs
  | pop =>
    simp only [Session.answer, pop]
    split
    · exact h.readToEnd_settle fun token hm => hs token ((List.dropLast_prefix _).subset hm)
    · rw [ReadToEnd, settle_draft]
      simp
  | clear =>
    rw [ReadToEnd, Session.answer, clear, settle_draft]
    simp
  | setRoot root => rwa [ReadToEnd, Session.answer, setRoot, settle_draft]

theorem Plain.readToEnd_after (h : s.Plain) (hs : s.ReadToEnd) (calls : List Call) :
    (s.after calls).ReadToEnd :=
  (after_induction (P := fun s => s.Plain ∧ s.ReadToEnd)
    (fun _ call h => ⟨h.1.answer call, h.1.readToEnd_answer h.2 call⟩) calls ⟨h, hs⟩).2

end Session

/-! ### The full text -/

namespace Token

/-- Texts that leave nothing open are read one by one when blanks stand between them. -/
theorem scan_join : ∀ {ts : List Text}, (∀ t ∈ ts, leavesOpen .standard t = false) →
    scan .standard (Text.join [' '] ts) = ts.flatMap (scan .standard) ∧
      leavesOpen .standard (Text.join [' '] ts) = false
  | [], _ => ⟨rfl, rfl⟩
  | [t], h => by simpa [Text.join] using h t List.mem_cons_self
  | t :: u :: ts, h => by
    obtain ⟨hscan, hopen⟩ := scan_join fun t' hm => h t' (List.mem_cons_of_mem t hm)
    have ht := h t List.mem_cons_self
    have hjoin : Text.join [' '] (t :: u :: ts) = t ++ ' ' :: Text.join [' '] (u :: ts) := by
      simp [Text.join]
    rw [hjoin, scan_append_blank ht (by decide), leavesOpen_append_blank ht (by decide), hscan]
    exact ⟨rfl, hopen⟩

theorem scan_append_closers : ∀ {s : Text} (n : Nat), leavesOpen .standard s = false →
    scan .standard (s ++ (List.replicate n [' ', ')']).flatten) =
      scan .standard s ++ List.replicate n ⟨.closeParen, [')'], none⟩
  | s, 0, _ => by simp
  | s, n + 1, h => by
    have hopen : leavesOpen .standard (s ++ [' ', ')']) = false :=
      leavesOpen_append_blank h (by decide) [')']
    have hscan : scan .standard (s ++ [' ', ')']) =
        scan .standard s ++ [⟨.closeParen, [')'], none⟩] :=
      scan_append_blank h (by decide) [')']
    rw [List.replicate_succ, List.flatten_cons, ← List.append_assoc, scan_append_closers n hopen,
      hscan, List.append_assoc]
    rfl

/-- Literals and a text with blanks between them are read as the tokens and those of the text. -/
theorem scan_fullText {tokens : List Token} {t : Text} (n : Nat)
    (htokens : ∀ token ∈ tokens, token.EndsBefore []) (ht : leavesOpen .standard t = false) :
    scan .standard (fullText tokens t n) =
      tokens ++ scan .standard t ++ List.replicate n ⟨.closeParen, [')'], none⟩ := by
  have hparts : ∀ part ∈ tokens.map literal ++ (if t.isEmpty then [] else [t]),
      leavesOpen .standard part = false := by
    intro part hm
    rcases List.mem_append.1 hm with hm | hm
    · obtain ⟨token, htoken, rfl⟩ := List.mem_map.1 hm
      exact (htokens token htoken).leavesOpen_literal
    · split_ifs at hm
      · cases hm
      · rwa [List.mem_singleton.1 hm]
  have hliterals : (tokens.map literal).flatMap (scan .standard) = tokens := by
    rw [List.flatMap_map, List.flatMap_congr fun token hm => (htokens token hm).scan_literal]
    exact List.flatMap_singleton' tokens
  have htext : (if t.isEmpty then [] else [t]).flatMap (scan .standard) = scan .standard t := by
    rcases t with _ | ⟨c, t⟩
    · rfl
    · simp
  obtain ⟨hscan, hopen⟩ := scan_join hparts
  rw [fullText, scan_append_closers n hopen, hscan, List.flatMap_append, hliterals, htext]

end Token

namespace Session

/-- The full text shown by a session is read as the query it stands for: the committed tokens, the
tokens of the text being typed, and a closing parenthesis for each open group. The text being typed
must not end inside a string or a parameter. -/
theorem fullText_reads_back
    (validator : Grammar → List Token → Except QueryError (Option Tree)) (schema : Option Schema)
    (options : Options) (root : Option Text) (calls : List Call) :
    let s := (start { validator, schema, options } root).after calls
    leavesOpen .standard s.draft.text = false →
      scan .standard s.snapshot.fullText = s.draft.tokens ++ scan .standard s.draft.text ++
        List.replicate s.snapshot.openCount ⟨.closeParen, [')'], none⟩ := by
  intro s hopen
  have hplain := plain_start validator schema options root
  have hread : s.ReadToEnd := hplain.readToEnd_after (by simp [ReadToEnd, start_draft]) calls
  have hsettled : s.Settled := (settle_settled _).after calls
  rw [hsettled.fullText, scan_fullText _ hread hopen]

theorem fullText_reads_back_group :
    let s := (start {}).after
      [.setText ['(', 'a', '>', '=', '\'', 'x', ' ', '"', '\'', ' '], .setText ['-', '1', '.', 'b']]
    leavesOpen .standard s.draft.text = false ∧
      scan .standard s.snapshot.fullText = s.draft.tokens ++ scan .standard s.draft.text ++
        List.replicate s.snapshot.openCount ⟨.closeParen, [')'], none⟩ := by
  intro s
  have hopen : leavesOpen .standard s.draft.text = false := by decide +kernel
  exact ⟨hopen, fullText_reads_back Tree.ofTokens none {} none _ hopen⟩

end Session

end Typeahead
