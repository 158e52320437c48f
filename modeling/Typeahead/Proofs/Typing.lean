import Typeahead.Command.Run
import Typeahead.Proofs.Settling

/-!
# Typing, pasting and reading agree

While a text is typed one character at a time, the draft stands for all that was typed: reading goes
on behind the text that is left as it does behind the whole text (`Draft.Follows`), and each
character keeps it so (`Draft.Follows.type`). A text that is pasted is cut at the same place, so the
two drafts differ in blanks at most, and committing what is left gives the tokens of the text
(`Session.typing_and_pasting_agree`).
-/

namespace Typeahead

open Token

namespace Draft

variable {d : Draft} {s t u z : Text} {c : Char} {force : Bool} {ts : List Token}

theorem due_of_endsBlank (h : Text.endsBlank t = true) : due force t = scan .standard t := by
  have hall : (scan .standard t).getLast?.all (isComplete .standard t) = true := by
    rw [Option.all_eq_true]
    intro last _
    rw [isComplete, h, Bool.or_true]
  rw [due, hall, Bool.or_true, if_pos rfl]

/-- What is due of a text is due behind other tokens, and these are due with it. -/
theorem due_append (hscan : scan .standard t = ts ++ scan .standard z)
    (hend : Text.endsBlank t = Text.endsBlank z)
    (hnil : scan .standard z = [] → Text.endsBlank z = true) :
    due force t = ts ++ due force z := by
  by_cases hz : scan .standard z = []
  · rw [due_of_endsBlank (hnil hz), due_of_endsBlank (hend.trans (hnil hz)), hscan]
  · have hcomplete : isComplete .standard t = isComplete .standard z := by
      funext last
      rw [isComplete, isComplete, hend]
    unfold due
    rw [hcomplete, hscan, List.getLast?_append_of_ne_nil _ hz, List.dropLast_append_of_ne_nil hz]
    split_ifs <;> rfl

theorem committed_append (hscan : scan .standard t = ts ++ scan .standard z)
    (hopen : leavesOpen .standard t = leavesOpen .standard z)
    (hend : Text.endsBlank t = Text.endsBlank z)
    (hnil : scan .standard z = [] → Text.endsBlank z = true) :
    committed force t = ts ++ committed force z := by
  unfold committed
  rw [hopen]
  split_ifs with hz
  · rw [hscan, List.dropLast_append_of_ne_nil (scan_ne_nil_of_leavesOpen hz)]
  · exact due_append hscan hend hnil

/-- A text whose last token is complete leaves nothing pending. -/
theorem reading_of_due (hopen : leavesOpen .standard t = false)
    (hdue : due false t = scan .standard t) :
    reading .standard none t = (scan .standard t, none) := by
  rcases hp : (reading .standard none t).2 with _ | p
  · refine Prod.ext ?_ hp
    rw [scan_eq, hp]
    exact (List.append_nil _).symm
  · have hscan : scan .standard t = (reading .standard none t).1 ++ [p.token .standard] := by
      rw [scan_eq, hp]
      rfl
    refine reading_of_endsBlank hopen ?_
    unfold due at hdue
    split_ifs at hdue with hall
    · rwa [hscan, List.getLast?_concat, Bool.false_or, Option.all_some, isComplete,
        single_of_reading hp, Bool.false_or] at hall
    · rw [hscan, List.dropLast_concat] at hdue
      simp at hdue

/-- Behind a text of one token a blank commits everything, or nothing if the token is open. -/
theorem committed_append_blank (hs : (scan .standard s).length ≤ 1) (hc : Text.isBlank c = true) :
    committed false (s ++ [c]) = scan .standard (s ++ [c]) ∨ committed false (s ++ [c]) = [] := by
  have hblank : ∀ w ∈ [c], Text.isBlank w = true := by simpa using hc
  unfold committed
  split_ifs with hopen
  · right
    have hopen' : leavesOpen .standard s = true := by
      by_contra hclosed
      rw [(scan_append_blanks (Bool.of_not_eq_true hclosed) hblank).1] at hopen
      cases hopen
    obtain ⟨p, hp, hc⟩ := exists_pending_of_leavesOpen hopen'
    rw [scan_eq, hp] at hs
    rw [scan_eq, reading_append_blanks hp hc hblank, ← List.length_eq_zero_iff,
      List.length_dropLast]
    simp only [Option.toList_some, List.map_singleton, List.length_append,
      List.length_singleton] at hs ⊢
    omega
  · exact .inl (due_of_endsBlank (by rw [Text.endsBlank_concat, hc]))

/-! ### The draft of a text being typed -/

/-- The draft stands for a text: what is committed are its tokens, and what comes next is read
behind the text that is left as behind the whole. -/
structure Follows (d : Draft) (t : Text) : Prop where
  tokens : d.tokens = committed false t
  tidy : Tidy d.text
  reading : reading .standard none t =
    (d.tokens ++ (reading .standard none d.text).1, (reading .standard none d.text).2)

namespace Follows

theorem start : Follows {} [] := ⟨rfl, by simp [Tidy, skipped, skippedFrom], rfl⟩

theorem reading_append (h : d.Follows t) (w : Text) : Token.reading .standard none (t ++ w) =
    (d.tokens ++ (Token.reading .standard none (d.text ++ w)).1,
      (Token.reading .standard none (d.text ++ w)).2) := by
  rw [Token.reading_append, Token.reading_append, h.reading, List.append_assoc]

theorem scan_append (h : d.Follows t) (w : Text) :
    scan .standard (t ++ w) = d.tokens ++ scan .standard (d.text ++ w) := by
  rw [scan_eq, h.reading_append, scan_eq (d.text ++ w), List.append_assoc]

theorem leavesOpen_append (h : d.Follows t) (w : Text) :
    leavesOpen .standard (t ++ w) = leavesOpen .standard (d.text ++ w) := by
  rw [leavesOpen, h.reading_append, leavesOpen]

theorem tidy_append (h : d.Follows t) {w : Text} (ht : Tidy (t ++ w)) : Tidy (d.text ++ w) := by
  intro c hc
  rw [skipped_append, List.mem_append] at hc
  rcases hc with hc | hc
  · exact h.tidy c hc
  · refine ht c ?_
    rw [skipped_append, h.reading]
    exact List.mem_append_right _ hc

theorem left (h : d.Follows t) : Left t d.text where
  tidy := h.tidy
  scan := by
    have hscan := h.scan_append []
    rwa [List.append_nil, List.append_nil, h.tokens] at hscan
  leavesOpen := by
    have hopen := h.leavesOpen_append []
    rwa [List.append_nil, List.append_nil, eq_comm] at hopen

theorem committed_append (h : d.Follows t) (ht : Tidy (t ++ [c])) :
    committed false (t ++ [c]) = d.tokens ++ committed false (d.text ++ [c]) := by
  refine Draft.committed_append (h.scan_append [c]) (h.leavesOpen_append [c])
    (by rw [Text.endsBlank_concat, Text.endsBlank_concat]) fun hnil => ?_
  have hblank := (h.tidy_append ht).blank_of_scan_eq_nil hnil
  rw [Text.endsBlank_concat]
  exact hblank c (List.mem_append_right _ List.mem_cons_self)

/-- What is left is trimmed when a character commits tokens, and nothing is lost by that. -/
theorem reading_cut (h : d.Follows t) (hz : Tidy (d.text ++ [c]))
    (hcut : Cut (d.text ++ [c]) (committed false (d.text ++ [c])) u)
    (hne : committed false (d.text ++ [c]) ≠ []) :
    Token.reading .standard none (d.text ++ [c]) =
      (committed false (d.text ++ [c]) ++ (Token.reading .standard none (Text.trim u)).1,
        (Token.reading .standard none (Text.trim u)).2) := by
  by_cases hu : scan .standard u = []
  · have hall := hcut.scan
    rw [hu, List.append_nil] at hall
    have hopen : leavesOpen .standard (d.text ++ [c]) = false := by
      rw [hcut.leavesOpen]
      by_contra hopen
      exact scan_ne_nil_of_leavesOpen (Bool.of_not_eq_false hopen) hu
    have hdue : due false (d.text ++ [c]) = scan .standard (d.text ++ [c]) := by
      rw [hall, committed, hopen, if_neg (by decide)]
    rw [reading_of_due hopen hdue, ← hall,
      Text.trim_eq_nil_of_blank ((hz.of_cut hcut).blank_of_scan_eq_nil hu)]
    simp [Token.reading]
  · have hunil : u ≠ [] := by
      rintro rfl
      exact hu rfl
    have hend : Text.endsBlank u = false := by
      obtain ⟨s, hs⟩ := hcut.isSuffix
      rw [← Text.endsBlank_append hunil s, hs, Text.endsBlank_concat]
      -- A blank would have committed all tokens or none of them.
      by_contra hc
      have hblank : Text.isBlank c = true := Bool.of_not_eq_false hc
      rcases committed_append_blank (length_left h.left.scan) hblank with hall | hnil
      · have hscan := hcut.scan
        rw [hall, List.self_eq_append_right] at hscan
        exact hu hscan
      · exact hne hnil
    rw [hcut.reading hunil, ← Text.trimStart_trimEnd, reading_trimStart,
      Text.trimEnd_eq_self_iff.2 hend]

/-- The draft goes on standing for what was typed when a character is added. -/
theorem type (h : d.Follows t) (ht : Tidy (t ++ [c])) :
    ((⟨d.tokens, d.text ++ [c]⟩ : Draft).process .standard (scan .standard) false).Follows
      (t ++ [c]) := by
  have hz := h.tidy_append ht
  obtain ⟨u, hcut, hprocess⟩ := process_tidy (d := ⟨d.tokens, d.text ++ [c]⟩) hz false
  have htokens := (h.committed_append ht).symm
  rw [hprocess]
  simp only at hcut ⊢
  by_cases hnil : committed false (d.text ++ [c]) = []
  · rw [if_pos hnil]
    refine ⟨htokens, hz, ?_⟩
    rw [h.reading_append, hnil, List.append_nil]
  · rw [if_neg hnil]
    refine ⟨htokens, (hz.of_cut hcut).trim, ?_⟩
    rw [h.reading_append, h.reading_cut hz hcut hnil, List.append_assoc]

end Follows

/-! ### Typed or pasted -/

/-- The draft is what a text leads to, however it was entered: its tokens are committed, but for
those left in the text, perhaps without some blanks. -/
structure Holds (d : Draft) (t : Text) : Prop where
  tokens : d.tokens = committed false t
  tidy : Tidy d.text
  text : ∃ u, Left t u ∧ Text.trim d.text = Text.trim u

theorem Follows.holds (h : d.Follows t) : d.Holds t := ⟨h.tokens, h.tidy, d.text, h.left, rfl⟩

theorem holds_process (ht : Tidy t) :
    ((⟨[], t⟩ : Draft).process .standard (scan .standard) false).Holds t := by
  obtain ⟨u, hcut, hprocess⟩ := process_tidy (d := ⟨[], t⟩) ht false
  simp only [List.nil_append] at hcut hprocess
  rw [hprocess]
  by_cases hnil : committed false t = []
  · rw [if_pos hnil]
    rw [hnil] at hcut
    cases hcut
    exact ⟨rfl, ht, t, ⟨ht, by rw [hnil]; rfl, rfl⟩, rfl⟩
  · rw [if_neg hnil]
    exact ⟨rfl, (ht.of_cut hcut).trim, u, .of_cut ht hcut, Text.trim_trim u⟩

theorem Holds.trim_eq {d' : Draft} (h : d.Holds t) (h' : d'.Holds t) :
    Text.trim d.text = Text.trim d'.text := by
  obtain ⟨u, hu, htext⟩ := h.text
  obtain ⟨u', hu', htext'⟩ := h'.text
  rw [htext, htext', hu.trim_eq hu']

theorem Holds.process_force (h : d.Holds t) (hopen : leavesOpen .standard t = false) :
    (d.process .standard (scan .standard) true).tokens = scan .standard t ∧
      ∀ c ∈ (d.process .standard (scan .standard) true).text, Text.isBlank c = true := by
  obtain ⟨u, hu, htext⟩ := h.text
  rw [← hu.leavesOpen] at hopen
  have hopen' : leavesOpen .standard d.text = false := by
    rw [← leavesOpen_trim, htext, leavesOpen_trim, hopen]
  have hscan : scan .standard t = d.tokens ++ scan .standard d.text := by
    rw [hu.scan, h.tokens, ← scan_trim hopen, ← scan_trim hopen', htext]
  rw [hscan]
  exact Draft.process_force h.tidy hopen'

end Draft

/-! ### Sessions -/

/-- In the standard grammar every token leads to a position. -/
theorem Position.ofLast_standard (last : Option Token) :
    ∃ position, ofLast .standard last = .ok position := by
  rcases last with _ | ⟨kind, value, quote⟩
  · exact ⟨_, rfl⟩
  · cases kind <;> exact ⟨_, rfl⟩

namespace Session

variable {s s' : Session} {t : Text}

theorem Plain.snapshotOf_failure (h : s.Plain) : (snapshotOf s.setup s.root s.draft).2 = none := by
  obtain ⟨position, hposition⟩ := Position.ofLast_standard s.draft.tokens.getLast?
  rw [snapshotOf, h.grammar, hposition]

theorem Plain.next_settle (h : s.Plain) : next s.settle = .ok s.settle.session := by
  unfold settle
  simp only [h.snapshotOf_failure]
  rfl

theorem Plain.next_settled (h : s.Plain) (hs : s.Settled) : next s.settled = .ok s := by
  unfold settled
  rw [hs.failure, h.snapshotOf_failure]
  rfl

/-- No call fails in a session that reads in the standard grammar. -/
theorem Plain.next_answer (h : s.Plain) (hs : s.Settled) (call : Call) :
    next (s.answer call) = .ok (s.answer call).session := by
  have hdraft : ∀ d root, next { s with draft := d, root := root }.settle =
      .ok { s with draft := d, root := root }.settle.session := fun d root =>
    Plain.next_settle (h.of_setup rfl)
  cases call with
  | setText t =>
    simp only [Session.answer, setText]
    split_ifs
    · rw [h.next_settled hs, settled_session]
    · exact hdraft _ _
  | commit => exact hdraft _ _
  | pop =>
    simp only [Session.answer, pop]
    split <;> exact hdraft _ _
  | clear => exact hdraft {} s.root
  | setRoot root => exact hdraft s.draft root

/-- What is shown besides the guesses and the text depends on the committed tokens only. -/
theorem Settled.snapshot_eq (h : s.Settled) (h' : s'.Settled) (hsetup : s.setup = s'.setup)
    (htokens : s.draft.tokens = s'.draft.tokens) :
    s.snapshot.position = s'.snapshot.position ∧
      s.snapshot.predictions = s'.snapshot.predictions ∧
      s.snapshot.isValid = s'.snapshot.isValid ∧
      s.snapshot.openCount = s'.snapshot.openCount := by
  rw [h.snapshot, h'.snapshot, hsetup, snapshotOf, snapshotOf, htokens]
  rcases Position.ofLast s'.setup.grammar s'.draft.tokens.getLast? with e | position <;>
    simp [bareSnapshot, htokens]

/-- A session in the standard grammar into which nothing has been typed. -/
structure Fresh (s : Session) : Prop where
  plain : s.Plain
  settled : s.Settled
  draft : s.draft = {}

theorem fresh_start (validator : Grammar → List Token → Except QueryError (Option Tree))
    (schema : Option Schema) (options : Options) (root : Option Text) :
    (start { validator, schema, options } root).Fresh :=
  ⟨plain_start validator schema options root, settle_settled _, start_draft _ _⟩

/-- The second session is the first one with a text entered. -/
structure Entered (s : Session) (t : Text) (s' : Session) : Prop where
  setup : s'.setup = s.setup
  settled : s'.Settled
  draft : s'.draft.Holds t

theorem Plain.typeAll_follows : ∀ {s : Session} {t : Text} (u : Text), s.Plain → s.Settled →
    s.draft.Follows t → Tidy (t ++ u) → ∃ s', s.typeAll u = .ok s' ∧ s'.setup = s.setup ∧
      s'.Settled ∧ s'.draft.Follows (t ++ u)
  | s, t, [], _, hs, hd, _ => ⟨s, rfl, rfl, hs, by rwa [List.append_nil]⟩
  | s, t, c :: u, h, hs, hd, ht => by
    have hnext : next (s.type c) = .ok (s.type c).session :=
      h.next_answer hs (.setText (s.draft.text ++ [c]))
    rw [← List.singleton_append, ← List.append_assoc] at ht ⊢
    have hfollows : (s.type c).session.draft.Follows (t ++ [c]) := by
      rw [type, h.setText_draft (by simp)]
      exact hd.type ht.of_append
    have hplain : (s.type c).session.Plain := h.answer (.setText (s.draft.text ++ [c]))
    have hsettled : (s.type c).session.Settled := hs.answer (.setText (s.draft.text ++ [c]))
    obtain ⟨s', htyped, hsetup, hs', hd'⟩ := hplain.typeAll_follows u hsettled hfollows ht
    refine ⟨s', ?_, hsetup.trans (s.setText_setup _), hs', hd'⟩
    rw [List.singleton_append, typeAll, hnext]
    exact htyped

/-- A replay is what its three parts do, one after the other. -/
theorem replay_eq {s₁ s₂ : Session} {force keystrokes : Bool} {n : Nat}
    (hs₁ : (if keystrokes then s.typeAll t else next (s.setText t)) = .ok s₁)
    (hs₂ : s₁.backspaces n = .ok s₂) :
    s.replay t force keystrokes n = if force then next s₂.commit else .ok s₂ := by
  cases keystrokes
  · rw [if_neg Bool.false_ne_true] at hs₁
    simp only [replay, bind, Except.bind, Bool.false_eq_true, if_false, hs₁, hs₂]
  · rw [if_pos rfl] at hs₁
    simp only [replay, bind, Except.bind, if_true, hs₁, hs₂]

namespace Fresh

theorem entered_typeAll (h : s.Fresh) (ht : Tidy t) :
    ∃ s', s.typeAll t = .ok s' ∧ s.Entered t s' := by
  have hd : s.draft.Follows [] := by
    rw [h.draft]
    exact .start
  obtain ⟨s', htyped, hsetup, hs', hd'⟩ := h.plain.typeAll_follows t h.settled hd ht
  exact ⟨s', htyped, hsetup, hs', hd'.holds⟩

theorem entered_setText (h : s.Fresh) (ht : Tidy t) :
    ∃ s', next (s.setText t) = .ok s' ∧ s.Entered t s' := by
  refine ⟨_, h.plain.next_answer h.settled (.setText t), s.setText_setup t,
    h.settled.answer (.setText t), ?_⟩
  simp only [Session.answer]
  by_cases hnil : t = s.draft.text
  · rw [setText, if_pos hnil, settled_session, hnil, h.draft]
    exact Draft.Follows.start.holds
  · rw [h.plain.setText_draft hnil, h.draft]
    exact Draft.holds_process ht

theorem commit (h : s.Fresh) (he : s.Entered t s') (hopen : leavesOpen .standard t = false) :
    ∃ s'', next s'.commit = .ok s'' ∧ s''.draft.tokens = scan .standard t ∧
      (∀ c ∈ s''.draft.text, Text.isBlank c = true) ∧
      s''.snapshot.isValid = (s.setup.validator .standard (scan .standard t)).isOk := by
  have hplain : s'.Plain := h.plain.of_setup he.setup
  obtain ⟨htokens, hblank⟩ := he.draft.process_force hopen
  rw [← hplain.commit_draft] at htokens hblank
  refine ⟨_, hplain.next_answer he.settled .commit, htokens, hblank, ?_⟩
  have hsetup : s'.commit.session.setup = s'.setup := s'.answer_setup .commit
  have hsettled : s'.commit.session.Settled := he.settled.answer .commit
  rw [Session.answer, hsettled.isValid, hsetup, hplain.grammar, he.setup, htokens]

theorem replay (h : s.Fresh) (ht : Tidy t) (hopen : leavesOpen .standard t = false)
    (keystrokes : Bool) : ∃ s', s.replay t true keystrokes 0 = .ok s' ∧
      s'.snapshot.isValid = (s.setup.validator .standard (scan .standard t)).isOk := by
  have hentered : ∃ s', (if keystrokes then s.typeAll t else next (s.setText t)) = .ok s' ∧
      s.Entered t s' := by
    cases keystrokes
    · exact h.entered_setText ht
    · exact h.entered_typeAll ht
  obtain ⟨s', hs', he⟩ := hentered
  obtain ⟨s'', hs'', -, -, hvalid⟩ := h.commit he hopen
  refine ⟨s'', ?_, hvalid⟩
  rw [replay_eq hs' rfl, if_pos rfl, hs'']

end Fresh

theorem fresh_of_settings {settings : Settings} (h : settings.session = .ok s) :
    s.Fresh ∧ s.setup.validator = Tree.ofTokens := by
  unfold Settings.session at h
  split at h
  · cases h
  · split at h
    · cases h
    · split at h
      · cases h
      · rename_i hnew
        cases h
        unfold new at hnew
        split at hnew
        · cases hnew
          exact ⟨fresh_start _ _ _ _, by rw [start_setup]⟩
        · cases hnew

/-- Two sessions that show the same, but for the guesses and blanks around the text. -/
structure Alike (s s' : Session) : Prop where
  tokens : s.draft.tokens = s'.draft.tokens
  text : Text.trim s.draft.text = Text.trim s'.draft.text
  position : s.snapshot.position = s'.snapshot.position
  predictions : s.snapshot.predictions = s'.snapshot.predictions
  isValid : s.snapshot.isValid = s'.snapshot.isValid
  openCount : s.snapshot.openCount = s'.snapshot.openCount

theorem Entered.alike {typed pasted : Session} (h : s.Entered t typed) (h' : s.Entered t pasted) :
    typed.Alike pasted := by
  have htokens := h.draft.tokens.trans h'.draft.tokens.symm
  obtain ⟨hposition, hpredictions, hvalid, hcount⟩ :=
    h.settled.snapshot_eq h'.settled (h.setup.trans h'.setup.symm) htokens
  exact ⟨htokens, h.draft.trim_eq h'.draft, hposition, hpredictions, hvalid, hcount⟩

/-- A text in which only blanks belong to no token leads to the same whether it is typed or pasted.
If it does not end inside a string or a parameter, committing what is left gives the tokens of the
text, and the session calls the query valid exactly if the text is, also on the command line. -/
theorem typing_and_pasting_agree
    (validator : Grammar → List Token → Except QueryError (Option Tree)) (schema : Option Schema)
    (options : Options) (root : Option Text) (t : Text)
    (ht : ∀ c ∈ skipped .standard t, Text.isBlank c = true) :
    let fresh := start { validator, schema, options } root
    ∃ typed pasted, fresh.typeAll t = .ok typed ∧ next (fresh.setText t) = .ok pasted ∧
      typed.Alike pasted ∧
      (leavesOpen .standard t = false →
        (∀ s, s = typed ∨ s = pasted → ∃ s', next s.commit = .ok s' ∧
          s'.draft.tokens = scan .standard t ∧ (∀ c ∈ s'.draft.text, Text.isBlank c = true) ∧
          s'.snapshot.isValid = (validator .standard (scan .standard t)).isOk) ∧
        ∀ (settings : Settings) (s : Session), settings.session = .ok s → ∀ keystrokes,
          ∃ s', s.replay t true keystrokes 0 = .ok s' ∧
            s'.snapshot.isValid = (Command.verdict t).isOk) := by
  intro fresh
  have hfresh : fresh.Fresh := fresh_start validator schema options root
  obtain ⟨typed, htyped, hentered⟩ := hfresh.entered_typeAll ht
  obtain ⟨pasted, hpasted, hentered'⟩ := hfresh.entered_setText ht
  refine ⟨typed, pasted, htyped, hpasted, hentered.alike hentered', fun hopen => ⟨?_, ?_⟩⟩
  · have hvalidator : fresh.setup.validator = validator := by rw [start_setup]
    rw [← hvalidator]
    rintro s (rfl | rfl)
    · exact hfresh.commit hentered hopen
    · exact hfresh.commit hentered' hopen
  · intro settings s hs keystrokes
    obtain ⟨hs, hvalidator⟩ := fresh_of_settings hs
    obtain ⟨s', hreplay, hvalid⟩ := hs.replay ht hopen keystrokes
    exact ⟨s', hreplay, by rw [hvalid, hvalidator, Command.verdict]⟩

theorem typing_and_pasting_agree_strings :
    let t := ['(', 'a', '>', '=', '\'', 'x', ' ', '\'', 'o', 'r', ' ', '\x7b', '\x7d', '-', '1', ' ']
    ((∀ c ∈ skipped .standard t, Text.isBlank c = true) ∧ leavesOpen .standard t = false) ∧
      ∃ typed pasted, (start {}).typeAll t = .ok typed ∧ next ((start {}).setText t) = .ok pasted ∧
        typed.Alike pasted ∧ ∃ s s', ({} : Settings).session = .ok s ∧
          s.replay t true true 0 = .ok s' ∧ s'.snapshot.isValid = (Command.verdict t).isOk := by
  intro t
  have hblank : (skipped .standard t).all Text.isBlank = true := by decide +kernel
  have ht : ∀ c ∈ skipped .standard t, Text.isBlank c = true := List.all_eq_true.1 hblank
  have hopen : leavesOpen .standard t = false := by decide +kernel
  have hsession : ∃ s, ({} : Settings).session = .ok s := by
    have hregistry : ({} : Settings).registry = .ok .empty := by
      rw [Settings.registry, Settings.registerAll]
      rfl
    have hclosed : Grammar.checkClosed .standard = .ok () := by decide
    rw [Settings.session, hregistry]
    simp only [Session.new, hclosed]
    exact ⟨_, rfl⟩
  obtain ⟨s, hs⟩ := hsession
  obtain ⟨typed, pasted, htyped, hpasted, halike, hclosed⟩ :=
    typing_and_pasting_agree Tree.ofTokens none {} none t ht
  obtain ⟨s', hreplay, hvalid⟩ := (hclosed hopen).2 {} s hs true
  exact ⟨⟨ht, hopen⟩, typed, pasted, htyped, hpasted, halike, s, s', hs, hreplay, hvalid⟩

end Session

end Typeahead
