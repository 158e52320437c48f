import Typeahead.Proofs.Calls
import Typeahead.Proofs.Segments
import Typeahead.Proofs.Trimming

/-!
# What is typed is kept

A token read from a text is moved to the committed ones as it was typed, or not at all
(`Segmented.readsExactly`): the text in front is the token's own literal, or a stray brace, which
stops every token behind it, or a token that lacks its closing delimiter and is longer than the
text. So reading changes nothing that is visible (`Draft.visible_process`), and after any keystrokes
a session shows what was typed and not deleted again (`Session.Plain.visible_presses`).
-/

namespace Typeahead

namespace Token.Solid

variable {token : Token} {d : Draft}

theorem trim_literal_append (h : token.Solid) (t : Text) :
    Text.trim (token.literal ++ t) = token.literal ++ Text.trimEnd t := by
  obtain ⟨c, rest, hfirst, hc, -⟩ := h.first
  obtain ⟨init, e, hlast, he⟩ := h.last
  have hstart : Text.trimStart (token.literal ++ t) = token.literal ++ t := by
    rw [hfirst]
    exact Text.trimStart_cons_of_not_blank hc _
  rw [Text.trim, hstart, hlast, Text.trimEnd_append_of_not_blank he]

theorem shift_eq (h : token.Solid) (d : Draft) :
    d.shift token = (Text.dropIgnoringCase? token.literal (Text.trim d.text)).elim d
      fun rest => ⟨d.tokens ++ [token], Text.trimStart rest⟩ := by
  unfold Draft.shift
  rw [h.spellings, List.findSome?_singleton]
  cases Text.dropIgnoringCase? token.literal (Text.trim d.text) <;> rfl

theorem shift_literal (h : token.Solid) {rest : Text}
    (ht : Text.trim d.text = token.literal ++ rest) :
    d.shift token = ⟨d.tokens ++ [token], Text.trimStart rest⟩ := by
  rw [h.shift_eq, ht, Text.dropIgnoringCase?_append, Option.elim_some]

theorem shift_brace (h : token.Solid) {t : Text} (ht : Text.trim d.text = '\x7d' :: t) :
    d.shift token = d := by
  obtain ⟨c, rest, hfirst, -, hc⟩ := h.first
  rw [h.shift_eq, ht, hfirst, Text.dropIgnoringCase?_brace hc, Option.elim_none]

theorem shift_short (h : token.Solid) (ht : (Text.trim d.text).length < token.literal.length) :
    d.shift token = d := by
  rw [h.shift_eq, Text.dropIgnoringCase?_of_length_lt ht, Option.elim_none]

end Token.Solid

namespace Draft

variable {d : Draft} {token : Token} {ts : List Token}

/-- What is seen of a draft: the literals of its tokens and its text, without the blanks. -/
def visible (d : Draft) : Text := Text.visible (d.tokens.flatMap (·.literal) ++ d.text)

/-- The token is left where it is, or exactly its literal is taken off the trimmed text. -/
def ShiftsExactly (d : Draft) (token : Token) : Prop :=
  d.shift token = d ∨ ∃ rest, Text.trim d.text = token.literal ++ rest ∧
    d.shift token = ⟨d.tokens ++ [token], Text.trimStart rest⟩

/-- Each of some tokens in turn is shifted exactly. -/
def ReadsExactly : Draft → List Token → Prop
  | _, [] => True
  | d, token :: ts => d.ShiftsExactly token ∧ (d.shift token).ReadsExactly ts

theorem ShiftsExactly.visible (h : d.ShiftsExactly token) :
    (d.shift token).visible = d.visible := by
  rcases h with h | ⟨rest, ht, h⟩
  · rw [h]
  · have htext := Text.visible_trim d.text
    rw [ht, Text.visible_append] at htext
    rw [h]
    simp only [Draft.visible, List.flatMap_append, List.flatMap_singleton, Text.visible_append,
      Text.visible_trimStart, List.append_assoc, htext]

theorem readsExactly_append (us : List Token) : ∀ (ts : List Token) (d : Draft),
    d.ReadsExactly (ts ++ us) ↔ d.ReadsExactly ts ∧ (ts.foldl shift d).ReadsExactly us
  | [], _ => (iff_of_eq (true_and _)).symm
  | token :: ts, d => by
    have ih := readsExactly_append us ts (d.shift token)
    simp only [List.cons_append, ReadsExactly, ih, List.foldl_cons, and_assoc]

theorem ReadsExactly.visible_foldl : ∀ {d : Draft} {ts : List Token}, d.ReadsExactly ts →
    (ts.foldl shift d).visible = d.visible
  | _, [], _ => rfl
  | _, _ :: _, h => (ReadsExactly.visible_foldl h.2).trans h.1.visible

/-- In front of a stray brace nothing moves. -/
theorem readsExactly_of_brace {t : Text} (ht : Text.trim d.text = '\x7d' :: t) :
    ∀ {ts : List Token}, (∀ token ∈ ts, token.Solid) → d.ReadsExactly ts
  | [], _ => trivial
  | token :: ts, h => by
    have hstay := (h token List.mem_cons_self).shift_brace ht
    refine ⟨.inl hstay, ?_⟩
    rw [hstay]
    exact readsExactly_of_brace ht fun token hm => h token (List.mem_cons_of_mem _ hm)

end Draft

theorem Segmented.solid {t : Text} {ts : List Token} (h : Segmented t ts) :
    ∀ token ∈ ts, token.Solid := by
  induction h with
  | nil => simp
  | skip _ _ ih => exact ih
  | token hs _ ih => exact List.forall_mem_cons.2 ⟨hs, ih⟩
  | unclosed hs _ _ => simpa using hs

/-- The tokens of a text are read off any draft that ends in that text, but for the blanks at its
ends. -/
theorem Segmented.readsExactly {t : Text} {ts : List Token} (h : Segmented t ts) :
    ∀ {d : Draft}, Text.trim d.text = Text.trim t → d.ReadsExactly ts := by
  induction h with
  | nil => exact fun _ => trivial
  | @skip c t ts hc hseg ih =>
    intro d ht
    rcases hc with hb | rfl
    · exact ih (ht.trans (Text.trim_cons_of_blank hb t))
    · rw [Text.trim_cons_of_not_blank (by decide)] at ht
      exact Draft.readsExactly_of_brace ht hseg.solid
  | @token token t ts hs _ ih =>
    intro d ht
    rw [hs.trim_literal_append] at ht
    have hshift := hs.shift_literal ht
    refine ⟨.inr ⟨_, ht, hshift⟩, ?_⟩
    rw [hshift]
    exact ih ((Text.trim_trimStart _).trans (Text.trim_trimEnd t))
  | @unclosed token t e hs _ hl =>
    intro d ht
    refine ⟨.inl (hs.shift_short ?_), trivial⟩
    have := Text.trim_length_le t
    rw [ht, hl, List.length_append, List.length_singleton]
    omega

namespace Draft

theorem readsExactly_scan (d : Draft) : d.ReadsExactly (Token.scan .standard d.text) :=
  (segmented_scan d.text).readsExactly rfl

theorem visible_pass (force : Bool) (d : Draft) :
    (d.pass .standard (Token.scan .standard) force).visible = d.visible := by
  have hread := d.readsExactly_scan
  unfold pass
  simp only []
  split
  · rfl
  · rename_i last hlast
    rw [← List.dropLast_append_getLast? last hlast, readsExactly_append] at hread
    obtain ⟨hinit, hlast, -⟩ := hread
    split_ifs
    · exact hlast.visible.trans hinit.visible_foldl
    · exact hinit.visible_foldl

theorem visible_process (force : Bool) (d : Draft) :
    (d.process .standard (Token.scan .standard) force).visible = d.visible := by
  fun_induction process with
  | case1 force d d' => exact visible_pass force d
  | case2 force d d' _ ih => exact ih.trans (visible_pass force d)

end Draft

/-- What is done to a query being typed. -/
inductive Keystroke
  | type (c : Char)
  | backspace
  | commit

namespace Session

/-- The session after a keystroke. -/
def press (s : Session) : Keystroke → Session
  | .type c => (s.type c).session
  | .backspace => s.backspace.session
  | .commit => s.commit.session

/-- The character that a backspace deletes: the last one of the text, and of the last committed
token's literal when the text is empty. -/
def deleted? (s : Session) : Option Char :=
  if s.draft.text ≠ [] then s.draft.text.getLast?
  else s.draft.tokens.getLast?.bind (·.literal.getLast?)

/-- What has been typed and not deleted again, after a keystroke. Blanks are not recorded. -/
def record (s : Session) (log : Text) : Keystroke → Text
  | .type c => if Text.isBlank c then log else log ++ [c]
  | .backspace => if s.deleted?.any (!Text.isBlank ·) then log.dropLast else log
  | .commit => log

/-- What has been typed and not deleted again, after some keystrokes. -/
def recordAll : Session → Text → List Keystroke → Text
  | _, log, [] => log
  | s, log, key :: keys => (s.press key).recordAll (s.record log key) keys

variable {s : Session}

theorem press_setup (s : Session) (key : Keystroke) : (s.press key).setup = s.setup := by
  cases key with
  | type c => exact s.setText_setup _
  | backspace =>
    simp only [press, backspace]
    split_ifs
    · exact s.setText_setup _
    · exact s.pop_setup
    · rw [settled_session]
  | commit => exact settle_setup _

theorem Plain.press (h : s.Plain) (key : Keystroke) : (s.press key).Plain :=
  h.of_setup (s.press_setup key)

theorem Plain.visible_process (h : s.Plain) (force : Bool) (d : Draft) :
    (s.process force d).visible = d.visible := by
  rw [h.process, Draft.visible_process]

theorem Plain.visible_setText (h : s.Plain) (t : Text) :
    (s.setText t).session.draft.visible = ({ s.draft with text := t } : Draft).visible := by
  unfold setText
  split_ifs with ht
  · rw [settled_session, ht]
  · rw [settle_draft, h.visible_process]

theorem Plain.visible_pop (h : s.Plain) {token : Token}
    (ht : s.draft.tokens.getLast? = some token) : s.pop.session.draft.visible =
      (⟨s.draft.tokens.dropLast, token.literal.dropLast⟩ : Draft).visible := by
  unfold pop
  simp only [ht]
  rw [settle_draft, h.visible_process]

theorem Plain.visible_backspace (h : s.Plain) : s.backspace.session.draft.visible =
    if s.deleted?.any (!Text.isBlank ·) then s.draft.visible.dropLast else s.draft.visible := by
  unfold backspace deleted?
  by_cases htext : s.draft.text = []
  · simp only [htext, ne_eq, not_true_eq_false, ↓reduceIte]
    rcases List.eq_nil_or_concat s.draft.tokens with hnil | ⟨init, token, htokens⟩
    · simp [hnil, settled_session]
    · have hlast : s.draft.tokens.getLast? = some token := by simp [htokens]
      have hshown : s.draft.visible = Text.visible (init.flatMap (·.literal) ++ token.literal) := by
        simp [Draft.visible, htext, htokens]
      have hpop := h.visible_pop hlast
      simp only [htokens, List.concat_eq_append, List.dropLast_concat] at hpop
      rw [if_pos (by simp [htokens]), hpop, hlast, hshown]
      exact Text.visible_append_dropLast _ _
  · simp only [htext, ne_eq, not_false_eq_true, ↓reduceIte]
    rw [h.visible_setText]
    exact Text.visible_append_dropLast _ _

/-- One keystroke changes what is seen as it changes what was typed. -/
theorem Plain.visible_press (h : s.Plain) (key : Keystroke) :
    (s.press key).draft.visible = s.record s.draft.visible key := by
  cases key with
  | type c =>
    simp only [Session.press, Session.type, record]
    rw [h.visible_setText, Draft.visible, ← List.append_assoc, Text.visible_append,
      Text.visible_singleton]
    split_ifs
    · exact List.append_nil _
    · rfl
  | backspace =>
    simp only [Session.press, record]
    exact h.visible_backspace
  | commit =>
    simp only [Session.press, Session.commit, record]
    rw [settle_draft, h.visible_process]

/-- After any keystrokes, what is seen is what was typed. -/
theorem Plain.visible_presses : ∀ {s : Session}, s.Plain → ∀ keys : List Keystroke,
    (keys.foldl Session.press s).draft.visible = s.recordAll s.draft.visible keys
  | _, _, [] => rfl
  | s, h, key :: keys => by
    rw [List.foldl_cons, visible_presses (h.press key) keys, h.visible_press]
    rfl

/-- Conservation of what is typed. Whatever is typed, deleted and committed in a new session, the
visible characters of its draft are the visible ones typed and not deleted again. In particular each
token of a text that is shifted takes its own literal off the text, in the case it was typed in. -/
theorem keystrokes_conserved (validator : Grammar → List Token → Except QueryError (Option Tree))
    (schema : Option Schema) (options : Options) (root : Option Text) :
    (∀ keys : List Keystroke,
      (keys.foldl press (start { validator, schema, options } root)).draft.visible =
        (start { validator, schema, options } root).recordAll [] keys) ∧
    ∀ (d : Draft) (before after : List Token) (token : Token),
      Token.scan .standard d.text = before ++ token :: after →
        (before.foldl Draft.shift d).ShiftsExactly token := by
  constructor
  · intro keys
    have hplain : (start { validator, schema, options } root).Plain := by
      constructor <;> rw [start, settle_setup]
    have hempty : (start { validator, schema, options } root).draft.visible = [] := by
      rw [start, settle_draft]
      rfl
    rw [hplain.visible_presses keys, hempty]
  · intro d before after token hscan
    have hread := d.readsExactly_scan
    rw [hscan, Draft.readsExactly_append] at hread
    exact hread.2.1

theorem keystrokes_conserved_brace :
    ([.type 'N', .type 'o', .type 'T', .type ' ', .type '\x7d', .type 'a', .commit].foldl press
      (start {})).draft.visible = ['N', 'o', 'T', '\x7d', 'a'] ∧
    Token.scan .standard ['N', 'o', 'T', ' ', '\x7d', 'a'] =
      [] ++ ⟨.property, ['N', 'o', 'T'], none⟩ :: [⟨.property, ['a'], none⟩] ∧
    Draft.ShiftsExactly ⟨[], ['N', 'o', 'T', ' ', '\x7d', 'a']⟩
      ⟨.property, ['N', 'o', 'T'], none⟩ := by
  have h := keystrokes_conserved Tree.ofTokens none {} none
  have hscan : Token.scan .standard ['N', 'o', 'T', ' ', '\x7d', 'a'] =
      [] ++ ⟨.property, ['N', 'o', 'T'], none⟩ :: [⟨.property, ['a'], none⟩] := by decide
  exact ⟨h.1 _, hscan, h.2 ⟨[], _⟩ [] _ _ hscan⟩

end Session

end Typeahead
