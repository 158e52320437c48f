import Typeahead.Proofs.Calls

/-!
# What a session shows and whom it tells

Every call but one settles the session on a new draft, which stands even if the call fails
(`answer_of_ne`); the exception is to set the text that is already there, which repeats the last
result (`answer_held`). From this it follows that the snapshot is always that of the present draft
(`Settled.coherent`), that a call fails exactly if the last token leads to no position, and that
the observers are told once each, in the order in which they came, of every other call that
succeeds.

Nothing here depends on the grammar or on what the session reads and judges queries with.
-/

namespace Typeahead

/-- What is asked of a session that others may watch. -/
inductive Request
  | subscribe
  | call (call : Call)

namespace Session

variable {s : Session}

/-! ### What a call does -/

/-- The draft that a call leads to, whether it succeeds or not. -/
def draftAfter (s : Session) : Call → Draft
  | .setText t => if t = s.draft.text then s.draft else s.process false ⟨s.draft.tokens, t⟩
  | .commit => s.process true s.draft
  | .pop => s.draft.tokens.getLast?.elim {} fun token =>
      s.process false ⟨s.draft.tokens.dropLast, token.literal.dropLast⟩
  | .clear => {}
  | .setRoot _ => s.draft

/-- The root type that a call leads to. -/
def rootAfter (s : Session) : Call → Option Text
  | .setRoot root => root
  | _ => s.root

theorem answer_held (s : Session) : s.answer (.setText s.draft.text) = s.settled := by
  rw [answer, setText, if_pos rfl]

theorem answer_of_ne {call : Call} (h : call ≠ .setText s.draft.text) :
    s.answer call = { s with draft := s.draftAfter call, root := s.rootAfter call }.settle := by
  cases call with
  | setText t =>
    have ht : t ≠ s.draft.text := fun ht => h (ht ▸ rfl)
    simp only [answer, setText, draftAfter, rootAfter, if_neg ht]
  | commit => rfl
  | pop =>
    simp only [answer, pop, draftAfter, rootAfter]
    cases s.draft.tokens.getLast? <;> rfl
  | clear => rfl
  | setRoot root => rfl

/-- Settling fails, and then nobody is told, or it succeeds and all are. -/
theorem settle_cases (s : Session) :
    (∃ e, Position.ofLast s.setup.grammar s.draft.tokens.getLast? = .error e ∧
      s.settle.result = .error e ∧ s.settle.notices = []) ∨
    ∃ position, Position.ofLast s.setup.grammar s.draft.tokens.getLast? = .ok position ∧
      s.settle.result = .ok s.settle.session.snapshot ∧
      s.settle.notices = (List.range s.observers).map (⟨·, s.settle.session.snapshot⟩) := by
  rcases hlast : Position.ofLast s.setup.grammar s.draft.tokens.getLast? with e | position
  · exact .inl ⟨e, rfl, by simp [settle, snapshotOf, hlast], by simp [settle, snapshotOf, hlast]⟩
  · refine .inr ⟨position, rfl, ?_, ?_⟩ <;> simp [settle, snapshotOf, hlast]

theorem settle_root (s : Session) : s.settle.session.root = s.root := by
  unfold settle
  simp only []
  split <;> rfl

theorem settle_observers (s : Session) : s.settle.session.observers = s.observers := by
  unfold settle
  simp only []
  split <;> rfl

/-- What a session returned last is what it has stored. -/
theorem settle_result (s : Session) : s.settle.result = s.settle.session.settled.result := by
  unfold settle
  simp only []
  split <;> rename_i h <;> simp [settled, h]

theorem answer_result (s : Session) (call : Call) :
    (s.answer call).result = (s.answer call).session.settled.result := by
  by_cases h : call = .setText s.draft.text
  · rw [h, answer_held, settled_session]
  · rw [answer_of_ne h, settle_result]

theorem answer_observers (s : Session) (call : Call) :
    (s.answer call).session.observers = s.observers := by
  by_cases h : call = .setText s.draft.text
  · rw [h, answer_held, settled_session]
  · rw [answer_of_ne h, settle_observers]

theorem answer_root (s : Session) (call : Call) :
    (s.answer call).session.root = s.rootAfter call := by
  by_cases h : call = .setText s.draft.text
  · rw [h, answer_held, settled_session]
    rfl
  · rw [answer_of_ne h, settle_root]

theorem answer_draft (s : Session) (call : Call) :
    (s.answer call).session.draft = s.draftAfter call := by
  by_cases h : call = .setText s.draft.text
  · rw [h, answer_held, settled_session, draftAfter, if_pos rfl]
  · rw [answer_of_ne h, settle_draft]

/-! ### What is shown -/

/-- The snapshot says what follows from the present draft and root type. Where the last token leads
to no position it predicts and offers nothing. -/
structure Coherent (s : Session) : Prop where
  text : s.snapshot.text = s.draft.text
  tokens : s.snapshot.tokens = s.draft.tokens
  isValid : s.snapshot.isValid = (s.setup.validator s.setup.grammar s.draft.tokens).isOk
  openCount : s.snapshot.openCount = Nesting.openCount s.draft.tokens
  fullText : s.snapshot.fullText =
    Typeahead.fullText s.draft.tokens s.draft.text (Nesting.openCount s.draft.tokens)
  placed : ∀ position, Position.ofLast s.setup.grammar s.draft.tokens.getLast? = .ok position →
    s.snapshot.position = some position ∧
      predictNext s.setup.grammar s.draft.tokens = .ok s.snapshot.predictions ∧
      s.snapshot.guesses = guesses s.setup s.root s.draft.text s.snapshot.predictions
  lost : ∀ e, Position.ofLast s.setup.grammar s.draft.tokens.getLast? = .error e →
    s.snapshot.position = none ∧ s.snapshot.predictions = [] ∧ s.snapshot.guesses = []

theorem Settled.coherent (h : s.Settled) : s.Coherent := by
  have hsnapshot := h.snapshot
  unfold snapshotOf at hsnapshot
  rcases hlast : Position.ofLast s.setup.grammar s.draft.tokens.getLast? with e | position <;>
    rw [hlast] at hsnapshot
  · refine ⟨?_, ?_, ?_, ?_, ?_, ?_, ?_⟩ <;> simp [hsnapshot, bareSnapshot, hlast]
  · refine ⟨?_, ?_, ?_, ?_, ?_, ?_, ?_⟩ <;>
      simp [hsnapshot, bareSnapshot, hlast, predictNext, Except.map]

theorem Settled.subscribe (h : s.Settled) : s.subscribe.Settled := h

/-- The last result was a failure exactly if the last token leads to no position. -/
theorem Settled.result_eq_error_iff (h : s.Settled) (e : GuessError) :
    s.settled.result = .error e ↔
      Position.ofLast s.setup.grammar s.draft.tokens.getLast? = .error e := by
  have hfailure := h.failure
  unfold snapshotOf at hfailure
  rcases hlast : Position.ofLast s.setup.grammar s.draft.tokens.getLast? with e' | position <;>
    rw [hlast] at hfailure <;> simp [settled, hfailure]

theorem settled_result_eq_ok {snapshot : Snapshot} (h : s.settled.result = .ok snapshot) :
    snapshot = s.snapshot := by
  unfold settled at h
  split at h <;> cases h
  rfl

theorem settled_eq (s : Session) : s.settled = ⟨s, s.settled.result, []⟩ := by
  unfold settled
  split <;> rfl

/-! ### Who is told -/

theorem answer_notices_of_error {call : Call} {e : GuessError}
    (h : (s.answer call).result = .error e) : (s.answer call).notices = [] := by
  by_cases hheld : call = .setText s.draft.text
  · rw [hheld, answer_held, settled_eq]
  · rw [answer_of_ne hheld] at h ⊢
    obtain ⟨_, -, -, hnotices⟩ | ⟨_, -, hok, -⟩ := settle_cases { s with
      draft := s.draftAfter call, root := s.rootAfter call }
    · exact hnotices
    · rw [hok] at h
      cases h

theorem answer_notices_of_ok {call : Call} {snapshot : Snapshot}
    (hheld : call ≠ .setText s.draft.text) (h : (s.answer call).result = .ok snapshot) :
    (s.answer call).notices = (List.range s.observers).map (⟨·, snapshot⟩) := by
  rw [answer_of_ne hheld] at h ⊢
  obtain ⟨_, -, herror, -⟩ | ⟨_, -, hok, hnotices⟩ := settle_cases { s with
    draft := s.draftAfter call, root := s.rootAfter call }
  · rw [herror] at h
    cases h
  · rw [hok] at h
    cases h
    exact hnotices

/-- What a call leads to: its draft and root type stand, with a snapshot that says what follows from
them. It fails exactly if the last token leads to no position, and then nobody is told. If it
succeeds every observer is told once, in order, unless the text was already there. -/
structure Answered (s : Session) (call : Call) (o : Outcome) : Prop where
  draft : o.session.draft = s.draftAfter call
  root : o.session.root = s.rootAfter call
  coherent : o.session.Coherent
  fails : ∀ e, o.result = .error e ↔
    Position.ofLast s.setup.grammar o.session.draft.tokens.getLast? = .error e
  shows : ∀ snapshot, o.result = .ok snapshot → snapshot = o.session.snapshot
  silent : ∀ e, o.result = .error e → o.notices = []
  tells : call ≠ .setText s.draft.text → ∀ snapshot, o.result = .ok snapshot →
    o.notices = (List.range s.observers).map (⟨·, snapshot⟩)

theorem Settled.answered (h : s.Settled) (call : Call) : s.Answered call (s.answer call) := by
  have hsettled := h.answer call
  have hresult := s.answer_result call
  refine ⟨s.answer_draft call, s.answer_root call, hsettled.coherent, fun e => ?_,
    fun snapshot h => settled_result_eq_ok (hresult ▸ h), fun e h => answer_notices_of_error h,
    fun hheld snapshot h => answer_notices_of_ok hheld h⟩
  rw [hresult, hsettled.result_eq_error_iff, s.answer_setup]

end Session

/-! ### Runs -/

/-- A session and the result of the last call. -/
structure Run where
  session : Session
  last : Except GuessError Snapshot

namespace Run

/-- To build a session is a first settling, which succeeds. -/
def start (s : Session) : Run := ⟨s, .ok s.snapshot⟩

def serve (r : Run) : Request → Run
  | .subscribe => ⟨r.session.subscribe, r.last⟩
  | .call call => ⟨(r.session.answer call).session, (r.session.answer call).result⟩

def serveAll (r : Run) (requests : List Request) : Run := requests.foldl serve r

/-- The session is settled, and its last result is the one it would repeat. -/
structure Sound (r : Run) : Prop where
  settled : r.session.Settled
  last : r.last = r.session.settled.result

variable {r : Run}

theorem Sound.serve (h : r.Sound) : ∀ request, (r.serve request).Sound
  | .subscribe => by
    refine ⟨h.settled.subscribe, h.last.trans ?_⟩
    simp only [Run.serve, Session.settled, Session.subscribe]
    cases r.session.failure <;> rfl
  | .call call => ⟨h.settled.answer call, r.session.answer_result call⟩

theorem Sound.serveAll : ∀ {r : Run} (requests : List Request), r.Sound →
    (r.serveAll requests).Sound
  | _, [], h => h
  | _, request :: requests, h => (h.serve request).serveAll requests

theorem serveAll_setup : ∀ (requests : List Request) (r : Run),
    (r.serveAll requests).session.setup = r.session.setup
  | [], _ => rfl
  | .subscribe :: requests, r => serveAll_setup requests (r.serve .subscribe)
  | .call call :: requests, r =>
    (serveAll_setup requests (r.serve (.call call))).trans (r.session.answer_setup call)

theorem serveAll_observers : ∀ (requests : List Request) (r : Run),
    (r.serveAll requests).session.observers =
      r.session.observers + requests.countP (· matches .subscribe)
  | [], _ => rfl
  | .subscribe :: requests, r => by
    have ih := serveAll_observers requests (r.serve .subscribe)
    simp only [serve, Session.subscribe] at ih
    simp only [serveAll, List.foldl_cons, List.countP_cons] at ih ⊢
    simp only [serve, Session.subscribe, ih]
    simp only [if_true]
    omega
  | .call call :: requests, r => by
    have ih := serveAll_observers requests (r.serve (.call call))
    simp only [serve, r.session.answer_observers call] at ih
    simpa [serveAll, serve, List.countP_cons] using ih

theorem sound_start (setup : Setup) (root : Option Text) :
    (start (Session.start setup root)).Sound := by
  refine ⟨Session.settle_settled _, ?_⟩
  rw [start, Session.start, ← Session.settle_result]
  rfl

end Run

namespace Session

/-- Whatever a session with a closed grammar is asked to do, and whoever comes to watch it in
between: what it works with stays the same, its observers are those who came, its snapshot is
coherent, to set the text it holds changes nothing, tells nobody and repeats the last result, and
any call is answered. -/
theorem coherent_after_requests (setup : Setup) (root : Option Text)
    (hclosed : setup.grammar.checkClosed = .ok ()) :
    ∃ s₀, new setup root = .ok s₀ ∧ ∀ requests : List Request,
      let r := (Run.start s₀).serveAll requests
      r.session.setup = setup ∧
      r.session.observers = requests.countP (· matches .subscribe) ∧
      r.session.Coherent ∧
      r.session.setText r.session.draft.text = ⟨r.session, r.last, []⟩ ∧
      ∀ call, r.session.Answered call (r.session.answer call) := by
  refine ⟨start setup root, by rw [new, hclosed], fun requests => ?_⟩
  intro r
  have hsound : r.Sound := (Run.sound_start setup root).serveAll requests
  have hsetup : r.session.setup = setup := by
    rw [Run.serveAll_setup, Run.start, start_setup]
  have hobservers : r.session.observers = requests.countP (· matches .subscribe) := by
    rw [Run.serveAll_observers, Run.start, start, settle_observers, Nat.zero_add]
  have hheld : r.session.setText r.session.draft.text = ⟨r.session, r.last, []⟩ := by
    rw [hsound.last]
    exact r.session.answer_held.trans r.session.settled_eq
  exact ⟨hsetup, hobservers, hsound.settled.coherent, hheld, hsound.settled.answered⟩

/-- A setup in which a token can be committed that leads to no position. -/
def placeholderSetup : Setup where
  grammar := .ofList [(.property, { eval := some .primitive }), (.openParen, {}), (.closeParen, {}),
    (.placeholder, { single := true })]
  tokenizer _ t := if t.isEmpty then [] else [⟨.placeholder, ['%', '@'], none⟩]

theorem coherent_after_requests_failing :
    placeholderSetup.grammar.checkClosed = .ok () ∧
    ∃ s₀, new placeholderSetup = .ok s₀ ∧
      let r := (Run.start s₀).serveAll [.subscribe, .call (.setText ['%', '@'])]
      r.last = .error (.noPosition .placeholder) ∧
        r.session.draft.tokens = [⟨.placeholder, ['%', '@'], none⟩] ∧
        r.session.setText [] = ⟨r.session, r.last, []⟩ ∧
        (r.session.answer .clear).notices = [⟨0, (r.session.answer .clear).session.snapshot⟩] := by
  have hclosed : placeholderSetup.grammar.checkClosed = .ok () := rfl
  obtain ⟨s₀, hnew, h⟩ := coherent_after_requests placeholderSetup none hclosed
  obtain rfl : start placeholderSetup = s₀ := Except.ok.inj hnew
  refine ⟨hclosed, _, hnew, ?_⟩
  intro r
  obtain ⟨-, -, -, -, hset⟩ := h [.subscribe]
  obtain ⟨-, hobservers, -, hheld, hcalls⟩ := h [.subscribe, .call (.setText ['%', '@'])]
  have htokens : r.session.draft.tokens = [⟨.placeholder, ['%', '@'], none⟩] := by decide +kernel
  have htext : r.session.draft.text = [] := by decide +kernel
  refine ⟨((hset _).fails _).2 ?_, htokens, htext ▸ hheld, ?_⟩
  · change Position.ofLast _ r.session.draft.tokens.getLast? = _
    rw [htokens]
    rfl
  · have htold := (hcalls .clear).tells (by simp) _ rfl
    rwa [hobservers] at htold

end Session

end Typeahead
