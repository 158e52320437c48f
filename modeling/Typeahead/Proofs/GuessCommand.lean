import Typeahead.Proofs.Registration
import Typeahead.Proofs.Typing

/-!
# Guessing on the command line

Settings that pass their check have a registry and options, and so a session
(`Settings.exists_session`). The command line changes neither the schema nor the excluded names, and
nothing else that it says can keep a session from being made. Settings with a fault give way to the
defaults, which pass (`Settings.check_default`).

A session in the standard grammar answers every call, since every token leads to a position there.
So it takes any typing, any number of deletions and a commit (`Session.Ready.replay`), and once the
settings file has been read nothing is left that could make a guess fail
(`Invocation.guess_succeeds`).
-/

namespace Typeahead

namespace Settings

variable {s : Settings}

theorem check_eq_ok : s.check = .ok () ↔
    (∃ kinds, excludedKinds s.guesser.excluded = .ok kinds) ∧ s.danglingRoot? = none ∧
      (s.schema.entries.findSome? fun (name, type) => danglingField? s.schema name type) = none ∧
      ∃ r, s.registry = .ok r := by
  unfold check
  split
  · next e he => simp [he]
  · next kinds hkinds =>
    split
    · next e he => simp [he]
    · next hroot =>
      split
      · next e he => simp [he]
      · next hfields =>
        split
        · next e he => simp [he]
        · next r hr => simp [hkinds, hroot, hfields, hr]

/-- The defaults have no fault. -/
theorem check_default : ({} : Settings).check = .ok () := by
  have hregistry : ({} : Settings).registry = .ok .empty := registerAll_nil _ _
  exact check_eq_ok.2 ⟨⟨_, rfl⟩, rfl, rfl, _, hregistry⟩

theorem exists_session (hregistry : ∃ r, s.registry = .ok r)
    (hexcluded : ∃ kinds, excludedKinds s.guesser.excluded = .ok kinds) :
    ∃ session, s.session = .ok session := by
  obtain ⟨r, hr⟩ := hregistry
  obtain ⟨kinds, hkinds⟩ := hexcluded
  have hclosed : Grammar.checkClosed .standard = .ok () := by decide
  rw [session, hr, options, hkinds]
  simp only [Session.new, hclosed]
  exact ⟨_, rfl⟩

end Settings

namespace Session

variable {s : Session}

/-- A settled session in the standard grammar. -/
structure Ready (s : Session) : Prop where
  plain : s.Plain
  settled : s.Settled

namespace Ready

theorem answer (h : s.Ready) (call : Call) :
    ∃ s', next (s.answer call) = .ok s' ∧ s'.Ready :=
  ⟨_, h.plain.next_answer h.settled call, h.plain.answer call, h.settled.answer call⟩

theorem typeAll : ∀ {s : Session} (t : Text), s.Ready → ∃ s', s.typeAll t = .ok s' ∧ s'.Ready
  | s, [], h => ⟨s, rfl, h⟩
  | s, c :: t, h => by
    obtain ⟨s', hs', h'⟩ := h.answer (.setText (s.draft.text ++ [c]))
    have hnext : next (s.type c) = .ok s' := hs'
    simp only [Session.typeAll, hnext]
    exact h'.typeAll t

theorem backspace (h : s.Ready) : ∃ s', next s.backspace = .ok s' ∧ s'.Ready := by
  unfold Session.backspace
  split_ifs
  · exact h.answer (.setText s.draft.text.dropLast)
  · exact h.answer .pop
  · exact ⟨s, h.plain.next_settled h.settled, h⟩

theorem backspaces : ∀ {s : Session} (n : Nat), s.Ready →
    ∃ s', s.backspaces n = .ok s' ∧ s'.Ready
  | s, 0, h => ⟨s, rfl, h⟩
  | s, n + 1, h => by
    obtain ⟨s', hs', h'⟩ := h.backspace
    simp only [Session.backspaces]
    split_ifs
    · exact ⟨s, rfl, h⟩
    · simp only [hs']
      exact h'.backspaces n

theorem replay (h : s.Ready) (t : Text) (force keystrokes : Bool) (backspaces : Nat) :
    ∃ s', s.replay t force keystrokes backspaces = .ok s' ∧ s'.Ready := by
  have htyped : ∃ s', (if keystrokes then s.typeAll t else next (s.setText t)) = .ok s' ∧
      s'.Ready := by
    cases keystrokes
    · exact h.answer (.setText t)
    · exact h.typeAll t
  obtain ⟨s₁, hs₁, h₁⟩ := htyped
  obtain ⟨s₂, hs₂, h₂⟩ := h₁.backspaces backspaces
  have hcommitted : ∃ s', (if force then next s₂.commit else .ok s₂) = .ok s' ∧ s'.Ready := by
    cases force
    · exact ⟨s₂, rfl, h₂⟩
    · exact h₂.answer .commit
  obtain ⟨s₃, hs₃, h₃⟩ := hcommitted
  exact ⟨s₃, (replay_eq hs₁ hs₂).trans hs₃, h₃⟩

end Ready

end Session

namespace Invocation

/-- The settings a command works with: those of the file or, if they have a fault, the defaults,
under what the command line says. -/
theorem settings_of_load {inv : Invocation} {home : Text} {found : Found} {loaded : Settings}
    (h : Settings.load (inv.settingsPath home) inv.configPath.isSome found = .ok loaded) :
    ∃ s warning, inv.settings home found = .ok (inv.override s, warning) ∧
      s = (if loaded.check.isOk then loaded else {}) ∧ s.check = .ok () := by
  unfold settings
  simp only [h]
  rcases hcheck : loaded.check with e | _
  · exact ⟨{}, warning e, rfl, rfl, Settings.check_default⟩
  · exact ⟨loaded, [], rfl, rfl, hcheck⟩

/-- Once the settings file has been read, a guess succeeds: there are settings without a fault to
work with, whatever the file says, a session can be made of them under any options of the command
line, and it takes whatever is typed, deleted and committed. -/
theorem guess_succeeds (inv : Invocation) (home : Text) (found : Found) {loaded : Settings}
    (h : Settings.load (inv.settingsPath home) inv.configPath.isSome found = .ok loaded) :
    ∃ s warning session, inv.settings home found = .ok (s, warning) ∧
      s = inv.override (if loaded.check.isOk then loaded else {}) ∧ s.session = .ok session ∧
      ∀ t force keystrokes backspaces,
        let command := Command.guess t force keystrokes backspaces
        ∃ session', session.replay t force keystrokes backspaces = .ok session' ∧
          command.run (inv.settingsPath home) found s =
            .ok (Command.printed (Report.snapshot s.format session'.snapshot), 0) ∧
          ({ inv with command := some command }.run home found).result = .ok 0 := by
  obtain ⟨base, warning, hsettings, hbase, hcheck⟩ := settings_of_load h
  obtain ⟨hexcluded, -, -, hregistry⟩ := Settings.check_eq_ok.1 hcheck
  have hsession : ∃ session, (inv.override base).session = .ok session :=
    Settings.exists_session hregistry hexcluded
  obtain ⟨session, hsession⟩ := hsession
  refine ⟨inv.override base, warning, session, hsettings, by rw [hbase], hsession, ?_⟩
  intro t force keystrokes backspaces command
  have hfresh := (Session.fresh_of_settings hsession).1
  obtain ⟨session', hreplay, -⟩ :=
    (⟨hfresh.plain, hfresh.settled⟩ : session.Ready).replay t force keystrokes backspaces
  have hrun : command.run (inv.settingsPath home) found (inv.override base) =
      .ok (Command.printed (Report.snapshot (inv.override base).format session'.snapshot), 0) := by
    simp only [command, Command.run, bind, Except.bind, hsession, hreplay]
  refine ⟨session', hreplay, hrun, ?_⟩
  have hsettings' : { inv with command := some command }.settings home found =
      .ok (inv.override base, warning) := hsettings
  have hpath : { inv with command := some command }.settingsPath home =
      inv.settingsPath home := rfl
  simp only [Invocation.run, hsettings', hpath, hrun]

/-- A file that excludes a name which is none, under a command line that names an unknown root
type. -/
theorem guess_succeeds_faulty :
    let inv : Invocation := ⟨some ['c'], some ['P'], true, some .json, false, true, none⟩
    let found := Found.contents "[guesser]\nexcluded = [\"OF\"]\n".toList
    ∃ loaded, Settings.load ['c'] true found = .ok loaded ∧ loaded.check.isOk = false ∧
      ∃ s warning session, inv.settings [] found = .ok (s, warning) ∧
        s = inv.override {} ∧ s.session = .ok session ∧
        ∃ session', session.replay ['a', ' ', '\x7d', '('] true true 9 = .ok session' := by
  intro inv found
  have hfaulty : ((Settings.load ['c'] true found).toOption.any fun s => !s.check.isOk) = true := by
    decide +kernel
  rcases hload : Settings.load ['c'] true found with e | loaded <;> rw [hload] at hfaulty
  · cases hfaulty
  · have hcheck : loaded.check.isOk = false := by simpa [Except.toOption] using hfaulty
    obtain ⟨s, warning, session, hsettings, hs, hsession, hreplay⟩ :=
      guess_succeeds inv [] found hload
    obtain ⟨session', hsession', -⟩ := hreplay ['a', ' ', '\x7d', '('] true true 9
    rw [hcheck] at hs
    exact ⟨loaded, rfl, hcheck, s, warning, session, hsettings, hs, hsession, session', hsession'⟩

end Invocation

end Typeahead
