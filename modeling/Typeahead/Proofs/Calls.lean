import Mathlib.Tactic.SplitIfs
import Typeahead.Session.Basic

/-!
# Sessions after any calls

What a session is asked to do is a list of calls. None of them changes what the session works with
(`answer_setup`), and after each of them the snapshot is that of the present draft
(`Settled.answer`), also when the call did nothing.
-/

namespace Typeahead

/-- What can be asked of a session. -/
inductive Call
  | setText (t : Text)
  | commit
  | pop
  | clear
  | setRoot (root : Option Text)

namespace Session

variable {s : Session}

/-- What a call leads to. -/
def answer (s : Session) : Call → Outcome
  | .setText t => s.setText t
  | .commit => s.commit
  | .pop => s.pop
  | .clear => s.clear
  | .setRoot root => s.setRoot root

/-- The session after some calls. -/
def after (s : Session) (calls : List Call) : Session :=
  calls.foldl (fun s call => (s.answer call).session) s

/-- What holds at first and is kept by every call holds after any calls. -/
theorem after_induction {P : Session → Prop} (hstep : ∀ s call, P s → P (s.answer call).session) :
    ∀ {s : Session} (calls : List Call), P s → P (s.after calls)
  | _, [], h => h
  | s, call :: calls, h => after_induction hstep calls (hstep s call h)

theorem settle_setup (s : Session) : s.settle.session.setup = s.setup := by
  unfold settle
  simp only []
  split <;> rfl

theorem settle_draft (s : Session) : s.settle.session.draft = s.draft := by
  unfold settle
  simp only []
  split <;> rfl

theorem settled_session (s : Session) : s.settled.session = s := by
  unfold settled
  split <;> rfl

theorem setText_setup (s : Session) (t : Text) : (s.setText t).session.setup = s.setup := by
  unfold setText
  split_ifs
  · rw [settled_session]
  · rw [settle_setup]

theorem pop_setup (s : Session) : s.pop.session.setup = s.setup := by
  unfold pop
  split <;> rw [settle_setup]

theorem answer_setup (s : Session) (call : Call) : (s.answer call).session.setup = s.setup := by
  cases call with
  | setText t => exact s.setText_setup t
  | commit => exact settle_setup _
  | pop => exact s.pop_setup
  | clear => exact settle_setup _
  | setRoot root => exact settle_setup _

theorem after_setup (s : Session) (calls : List Call) : (s.after calls).setup = s.setup :=
  after_induction (P := fun s' => s'.setup = s.setup)
    (fun s' call h => (s'.answer_setup call).trans h) calls rfl

/-- A session that reads in the standard grammar. -/
structure Plain (s : Session) : Prop where
  grammar : s.setup.grammar = .standard
  tokenizer : s.setup.tokenizer = Token.scan

theorem Plain.of_setup {s' : Session} (h : s.Plain) (hs : s'.setup = s.setup) : s'.Plain := by
  constructor
  · rw [hs, h.grammar]
  · rw [hs, h.tokenizer]

theorem Plain.answer (h : s.Plain) (call : Call) : (s.answer call).session.Plain :=
  h.of_setup (s.answer_setup call)

theorem Plain.after (h : s.Plain) (calls : List Call) : (s.after calls).Plain :=
  after_induction (fun _ call h => h.answer call) calls h

theorem Plain.process (h : s.Plain) (force : Bool) (d : Draft) :
    s.process force d = d.process .standard (Token.scan .standard) force := by
  rw [Session.process, h.grammar, h.tokenizer]

theorem Plain.setText_draft (h : s.Plain) {t : Text} (ht : t ≠ s.draft.text) :
    (s.setText t).session.draft =
      (⟨s.draft.tokens, t⟩ : Draft).process .standard (Token.scan .standard) false := by
  rw [setText, if_neg ht, settle_draft, h.process]

theorem Plain.commit_draft (h : s.Plain) :
    s.commit.session.draft = s.draft.process .standard (Token.scan .standard) true := by
  rw [commit, settle_draft, h.process]

theorem start_setup (setup : Setup) (root : Option Text) : (start setup root).setup = setup := by
  rw [start, settle_setup]

theorem start_draft (setup : Setup) (root : Option Text) : (start setup root).draft = {} := by
  rw [start, settle_draft]

theorem plain_start (validator : Grammar → List Token → Except QueryError (Option Tree))
    (schema : Option Schema) (options : Options) (root : Option Text) :
    (start { validator, schema, options } root).Plain := by
  constructor <;> rw [start_setup]

/-- The snapshot and the failure are those of the present draft. -/
def Settled (s : Session) : Prop := (s.snapshot, s.failure) = snapshotOf s.setup s.root s.draft

theorem settle_settled (s : Session) : s.settle.session.Settled := by
  unfold settle Settled
  simp only []
  split <;> rfl

theorem Settled.answer (h : s.Settled) (call : Call) : (s.answer call).session.Settled := by
  cases call with
  | setText t =>
    simp only [Session.answer, setText]
    split_ifs
    · rwa [settled_session]
    · exact settle_settled _
  | commit => exact settle_settled _
  | pop =>
    simp only [Session.answer, pop]
    split <;> exact settle_settled _
  | clear => exact settle_settled _
  | setRoot root => exact settle_settled _

theorem Settled.after (h : s.Settled) (calls : List Call) : (s.after calls).Settled :=
  after_induction (fun _ call h => h.answer call) calls h

theorem Settled.snapshot (h : s.Settled) : s.snapshot = (snapshotOf s.setup s.root s.draft).1 :=
  congrArg Prod.fst h

theorem Settled.failure (h : s.Settled) : s.failure = (snapshotOf s.setup s.root s.draft).2 :=
  congrArg Prod.snd h

theorem Settled.fullText (h : s.Settled) : s.snapshot.fullText =
    Typeahead.fullText s.draft.tokens s.draft.text s.snapshot.openCount := by
  rw [h.snapshot, snapshotOf]
  split <;> rfl

theorem Settled.isValid (h : s.Settled) :
    s.snapshot.isValid = (s.setup.validator s.setup.grammar s.draft.tokens).isOk := by
  rw [h.snapshot, snapshotOf]
  split <;> rfl

end Session

end Typeahead
