import Typeahead.Proofs.Conservation
import Typeahead.Proofs.Reading

/-!
# Taking tokens off the front of a text

At the front of a text stands a token, or a stray brace, or a token that lacks its closing delimiter
(`front`). `Cut s ts u` says that the tokens `ts` have been taken off the front of `s` and `u` is
left. It is the meaning of shifting: a pass over a draft cuts some of the tokens off its text and
trims what is left, and it stops early only at a brace or at a token that is open
(`Draft.pass_eq_cut`).
-/

namespace Typeahead

namespace Token

/-- A token is complete in front of a text: it is over with its last character, or the text has
nothing that could be added to it. -/
inductive EndsBefore (token : Token) (t : Text) : Prop
  | closed : reading .standard none token.literal = ([token], none) → EndsBefore token t
  | plain {p : Pending} : reading .standard none token.literal = ([], some p) →
      p.token .standard = token → p.closing = none → (∀ c ∈ t.head?, p.endsAt c = true) →
      EndsBefore token t

namespace EndsBefore

variable {token : Token} {s t : Text}

theorem of_isPrefix (h : token.EndsBefore t) (hs : s <+: t) : token.EndsBefore s := by
  cases h with
  | closed hr => exact .closed hr
  | plain hr hp hc he =>
    refine .plain hr hp hc fun c hm => ?_
    obtain ⟨u, rfl⟩ := hs
    rcases s with _ | ⟨d, s⟩
    · cases hm
    · exact he c hm

theorem reading_append (h : token.EndsBefore t) (ht : t ≠ []) :
    reading .standard none (token.literal ++ t) =
      (token :: (reading .standard none t).1, (reading .standard none t).2) := by
  rw [Token.reading_append]
  cases h with
  | closed hr => rw [hr]; rfl
  | plain hr hp hc he =>
    obtain ⟨c, r, rfl⟩ := List.exists_cons_of_ne_nil ht
    rw [hr, reading_some_cons_of_endsAt hc (he c rfl), hp]
    rfl

theorem scan_literal (h : token.EndsBefore t) : scan .standard token.literal = [token] := by
  rw [scan_eq]
  cases h with
  | closed hr => rw [hr]; rfl
  | plain hr hp hc he => rw [hr, ← hp]; rfl

theorem leavesOpen_literal (h : token.EndsBefore t) :
    leavesOpen .standard token.literal = false := by
  rw [leavesOpen]
  cases h with
  | closed hr => rw [hr]; rfl
  | plain hr hp hc he => rw [hr]; simp [hc]

theorem scan_append (h : token.EndsBefore t) :
    scan .standard (token.literal ++ t) = token :: scan .standard t := by
  by_cases ht : t = []
  · rw [ht, List.append_nil, h.scan_literal]
    rfl
  · rw [scan_eq, h.reading_append ht, scan_eq t]
    rfl

theorem leavesOpen_append (h : token.EndsBefore t) :
    leavesOpen .standard (token.literal ++ t) = leavesOpen .standard t := by
  by_cases ht : t = []
  · rw [ht, List.append_nil, h.leavesOpen_literal]
    rfl
  · rw [leavesOpen, h.reading_append ht, leavesOpen]

theorem mem_skipped_append (h : token.EndsBefore t) {c : Char} (hc : c ∈ skipped .standard t) :
    c ∈ skipped .standard (token.literal ++ t) := by
  rw [skipped_append, List.mem_append]
  right
  cases h with
  | closed hr => rwa [hr]
  | plain hr hp hclosing he =>
    rw [hr]
    rcases t with _ | ⟨d, r⟩
    · cases hc
    · have hd := he d rfl
      -- The character that ends the token is read as it would be with nothing pending.
      have hnext : ∀ p : Pending, p.closing = none → p.endsAt d = true →
          skippedFrom .standard (some p) (d :: r) = skippedFrom .standard none (d :: r) := by
        intro p hpc hpe
        simp [skippedFrom, skips, scanChar, hpc, hpe]
      rwa [hnext _ hclosing hd]

theorem solid (h : token.EndsBefore t) : token.Solid := by
  have hsolid := (segmented_scan token.literal).solid
  rw [h.scan_literal] at hsolid
  exact hsolid token List.mem_cons_self

end EndsBefore

end Token

open Token

/-- A text whose first token cannot be taken off: a brace stands in front of it, or it is open. -/
inductive Stuck (s : Text) : Prop
  | brace {t : Text} : Text.trimStart s = '\x7d' :: t → Stuck s
  | unclosed {token : Token} {q : Char} : Text.trimStart s ++ [q] = token.literal →
      scan .standard s = [token] → leavesOpen .standard s = true → Stuck s

/-- What stands at the front of a text, behind its leading blanks. -/
inductive Front (s : Text) : Prop
  | blank : (∀ c ∈ s, Text.isBlank c = true) → Front s
  | token {token : Token} {t : Text} : Text.trimStart s = token.literal ++ t →
      token.EndsBefore t → Front s
  | stuck : Stuck s → Front s

section Front

variable {s t : Text} {c : Char} {p : Pending}

theorem not_endsAt_of_mem_takeWhile : ∀ d ∈ t.takeWhile (!p.endsAt ·), p.endsAt d = false :=
  fun d hd => by simpa using List.mem_takeWhile_imp hd

theorem endsAt_of_mem_head? : ∀ d ∈ (t.dropWhile (!p.endsAt ·)).head?, p.endsAt d = true := by
  intro d hd
  have hhead := List.head?_dropWhile_not (!p.endsAt ·) t
  rw [Option.mem_def.1 hd] at hhead
  simpa using hhead

theorem Front.plain (hs : Text.trimStart s = c :: t)
    (hstart : Pending.start? .standard c = some (p, false)) (hp : p.closing = none)
    (hlit : ((p.extend (t.takeWhile (!p.endsAt ·))).token .standard).literal =
      c :: t.takeWhile (!p.endsAt ·)) : Front s := by
  have hreading := reading_of_start? hstart (not_endsAt_of_mem_takeWhile (t := t))
  have ht : c :: t = (c :: t.takeWhile (!p.endsAt ·)) ++ t.dropWhile (!p.endsAt ·) := by
    rw [List.cons_append, List.takeWhile_append_dropWhile]
  rw [← hlit] at ht hreading
  exact .token (hs.trans ht) (.plain hreading rfl hp endsAt_of_mem_head?)

/-- A delimited token is complete if its closing delimiter is found. -/
theorem Front.delimited {q : Char} (hs : Text.trimStart s = c :: t)
    (hstart : Pending.start? .standard c = some (p, false)) (hq : p.closing = some q)
    (hlit : ∀ run, ((p.extend run).token .standard).literal = c :: run ++ [q]) : Front s := by
  have hreading := reading_of_start? hstart (not_endsAt_of_mem_takeWhile (t := t))
  have hsplit := List.takeWhile_append_dropWhile (p := (!p.endsAt ·)) (l := t)
  rcases hd : t.dropWhile (!p.endsAt ·) with _ | ⟨d, r⟩
  · rw [hd, List.append_nil] at hsplit
    rw [hsplit, ← hs, reading_trimStart] at hreading
    refine .stuck (.unclosed (hs ▸ (hlit t).symm) ?_ ?_)
    · rw [scan_eq, hreading]
      rfl
    · rw [leavesOpen, hreading]
      simp [Pending.extend, hq]
  · have hend : p.endsAt d = true := endsAt_of_mem_head? d (by rw [hd]; rfl)
    have hdq : d = q := by simpa [Pending.endsAt, hq] using hend
    have ht : c :: t = (c :: t.takeWhile (!p.endsAt ·) ++ [q]) ++ r := by
      conv_lhs => rw [← hsplit, hd, hdq]
      simp
    rw [← hlit] at ht
    refine .token (hs.trans ht) (.closed ?_)
    rw [hlit, Token.reading_append, hreading]
    simp [reading, scanChar, Pending.endsAt, Pending.extend, hq]

theorem front (s : Text) : Front s := by
  rcases hs : Text.trimStart s with _ | ⟨c, t⟩
  · exact .blank (List.dropWhile_eq_nil_iff.1 hs)
  rcases hstart : Pending.start? .standard c with _ | ⟨p, _ | _⟩
  · have hc : Text.isBlank c = false := by
      have hhead := List.head?_dropWhile_not Text.isBlank s
      rwa [← Text.trimStart, hs] at hhead
    rcases skipped_of_start? hstart with hb | rfl
    · rw [hc] at hb
      cases hb
    · exact .stuck (.brace hs)
  · cases opens_of_start? hstart with
    | @plain k l _ hk hk' _ hstop hb hc =>
      refine .plain hs hstart rfl (Pending.solid_plain l _ hk hk' hc ?_).1
      intro d hd
      rcases List.mem_cons.1 hd with rfl | hd
      · exact hb
      · have hnot := not_endsAt_of_mem_takeWhile d hd
        by_contra hbd
        rw [Pending.endsAt_blank hstart (by simpa using hbd)] at hnot
        cases hnot
    | string hc => exact .delimited hs hstart rfl fun _ => rfl
    | parameter hc => exact .delimited hs hstart rfl fun _ => by subst hc; rfl
  · cases opens_of_start? hstart with
    | @plain k l _ hk hk' _ _ hb hc =>
      have hlit := (Pending.solid_plain l [] hk hk' hc (by simpa using hb)).1
      refine .token (hs.trans (congrArg (· ++ t) hlit.symm)) (.closed ?_)
      rw [hlit]
      simp [reading, scanChar, scanFresh, hstart]

end Front

/-- The tokens stand at the front of the first text, one after the other, and leave the second. -/
inductive Cut : Text → List Token → Text → Prop
  | nil {s : Text} : Cut s [] s
  | cons {s t u : Text} {token : Token} {ts : List Token} :
      Text.trimStart s = token.literal ++ t → token.EndsBefore t → Cut t ts u →
      Cut s (token :: ts) u

theorem Stuck.shift {s : Text} (h : Stuck s) {d : Draft} (hd : Text.trim d.text = Text.trim s)
    {token : Token} (ht : token ∈ scan .standard s) : d.shift token = d := by
  have hsolid := (segmented_scan s).solid token ht
  cases h with
  | brace hs =>
    have htrim := congrArg Text.trimEnd hs
    rw [Text.trimEnd_cons_of_not_blank (by decide)] at htrim
    exact hsolid.shift_brace (hd.trans htrim)
  | unclosed hl hscan _ =>
    rw [hscan, List.mem_singleton] at ht
    subst ht
    have hle := (Text.trimEnd_isPrefix (Text.trimStart s)).length_le
    refine hsolid.shift_short ?_
    rw [hd, ← hl, Text.trim, List.length_append, List.length_singleton]
    omega

theorem Stuck.foldl_shift {s : Text} (h : Stuck s) {d : Draft}
    (hd : Text.trim d.text = Text.trim s) :
    ∀ {ts : List Token}, (∀ token ∈ ts, token ∈ scan .standard s) → ts.foldl Draft.shift d = d
  | [], _ => rfl
  | token :: ts, ht => by
    rw [List.foldl_cons, h.shift hd (ht token List.mem_cons_self)]
    exact h.foldl_shift hd fun token hm => ht token (List.mem_cons_of_mem _ hm)

namespace Cut

variable {s u : Text} {ts : List Token}

theorem scan (h : Cut s ts u) : Token.scan .standard s = ts ++ Token.scan .standard u := by
  induction h with
  | nil => rfl
  | cons hs he _ ih => rw [← scan_trimStart, hs, he.scan_append, ih, List.cons_append]

theorem leavesOpen (h : Cut s ts u) :
    Token.leavesOpen .standard s = Token.leavesOpen .standard u := by
  induction h with
  | nil => rfl
  | cons hs he _ ih => rw [← leavesOpen_trimStart, hs, he.leavesOpen_append, ih]

theorem mem_skipped (h : Cut s ts u) {c : Char} (hc : c ∈ skipped .standard u) :
    c ∈ skipped .standard s := by
  induction h with
  | nil => exact hc
  | cons hs he _ ih => exact mem_skipped_of_trimStart (hs ▸ he.mem_skipped_append (ih hc))

theorem isSuffix (h : Cut s ts u) : u <:+ s := by
  induction h with
  | nil => exact List.suffix_rfl
  | cons hs _ _ ih =>
    exact ih.trans ((List.suffix_append _ _).trans (hs ▸ Text.trimStart_isSuffix _))

/-- As long as something is left, reading goes on behind the tokens cut off. -/
theorem reading (h : Cut s ts u) (hu : u ≠ []) : Token.reading .standard none s =
    (ts ++ (Token.reading .standard none u).1, (Token.reading .standard none u).2) := by
  induction h with
  | nil => rfl
  | cons hs he hcut ih =>
    have ht : _ ≠ [] := fun ht => hu (List.suffix_nil.1 (ht ▸ hcut.isSuffix))
    rw [← reading_trimStart, hs, he.reading_append ht, ih hu]
    rfl

theorem endsBefore (h : Cut s ts u) : ∀ token ∈ ts, token.EndsBefore [] := by
  induction h with
  | nil => simp
  | cons _ he _ ih =>
    exact List.forall_mem_cons.2 ⟨he.of_isPrefix List.nil_prefix, ih⟩

theorem trimEnd (h : Cut s ts u) : Cut (Text.trimEnd s) ts (Text.trimEnd u) := by
  induction h with
  | nil => exact .nil
  | cons hs he _ ih =>
    refine .cons ?_ (he.of_isPrefix (Text.trimEnd_isPrefix _)) ih
    rw [Text.trimStart_trimEnd, ← Text.trim_trimStart, hs, he.solid.trim_literal_append]

/-- Shifting the tokens takes them off the text and trims what is left. -/
theorem foldl_shift (h : Cut s ts u) {d : Draft} (hd : Text.trim d.text = Text.trim s) :
    ts.foldl Draft.shift d = ⟨d.tokens ++ ts, if ts = [] then d.text else Text.trim u⟩ ∧
      Text.trim (ts.foldl Draft.shift d).text = Text.trim u := by
  induction h generalizing d with
  | nil => simp [hd]
  | @cons s t u token ts hs he hcut ih =>
    have htrim : Text.trim d.text = token.literal ++ Text.trimEnd t := by
      rw [hd, ← Text.trim_trimStart, hs, he.solid.trim_literal_append]
    have hshift : d.shift token = ⟨d.tokens ++ [token], Text.trim t⟩ := by
      rw [he.solid.shift_literal htrim, Text.trimStart_trimEnd]
    obtain ⟨heq, htext⟩ := ih (d := d.shift token) (by rw [hshift, Text.trim_trim])
    rw [List.foldl_cons]
    refine ⟨?_, htext⟩
    rw [heq, hshift]
    rcases ts with _ | ⟨token', ts⟩
    · cases hcut
      simp
    · simp

end Cut

/-- Any tokens at the front of what is read can be taken off, up to the place where the text is
stuck. -/
theorem exists_cut {before after : List Token} {s : Text}
    (h : scan .standard s = before ++ after) :
    ∃ ts u, ts <+: before ∧ Cut s ts u ∧ (ts = before ∨ Stuck u) := by
  induction before generalizing s with
  | nil => exact ⟨[], s, List.nil_prefix, .nil, .inl rfl⟩
  | cons token before ih =>
    cases front s with
    | blank hb =>
      rw [scan_of_blank hb] at h
      cases h
    | stuck hs => exact ⟨[], s, List.nil_prefix, .nil, .inr hs⟩
    | token hs he =>
      rw [← scan_trimStart, hs, he.scan_append, List.cons_append, List.cons.injEq] at h
      obtain ⟨rfl, h⟩ := h
      obtain ⟨ts, u, hpre, hcut, hstop⟩ := ih h
      exact ⟨_ :: ts, u, List.cons_prefix_cons.2 ⟨rfl, hpre⟩, .cons hs he hcut,
        hstop.imp_left (congrArg _)⟩

namespace Draft

/-- The tokens that a pass means to shift. -/
def due (force : Bool) (t : Text) : List Token :=
  if force || (scan .standard t).getLast?.all (isComplete .standard t) then scan .standard t
  else (scan .standard t).dropLast

theorem due_isPrefix (force : Bool) (t : Text) : due force t <+: scan .standard t := by
  unfold due
  split_ifs
  · exact List.prefix_rfl
  · exact List.dropLast_prefix _

theorem pass_eq_foldl (force : Bool) (d : Draft) :
    d.pass .standard (scan .standard) force = (due force d.text).foldl shift d := by
  unfold pass due
  simp only []
  split
  · rename_i hnil
    rw [List.getLast?_eq_none_iff.1 hnil]
    simp
  · rename_i last hlast
    simp only [hlast, Option.all_some]
    split_ifs
    · conv_rhs => rw [← List.dropLast_append_getLast? last hlast, List.foldl_append]
      rfl
    · rfl

/-- What a pass does: it cuts tokens off the front of the text and trims the rest. -/
theorem pass_eq_cut (force : Bool) (d : Draft) : ∃ ts u, ts <+: due force d.text ∧
    Cut d.text ts u ∧ (ts = due force d.text ∨ Stuck u) ∧
      d.pass .standard (scan .standard) force =
        ⟨d.tokens ++ ts, if ts = [] then d.text else Text.trim u⟩ := by
  obtain ⟨after, hafter⟩ := due_isPrefix force d.text
  obtain ⟨ts, u, hpre, hcut, hstop⟩ := exists_cut hafter.symm
  refine ⟨ts, u, hpre, hcut, hstop, ?_⟩
  obtain ⟨heq, htext⟩ := hcut.foldl_shift (d := d) rfl
  rw [pass_eq_foldl, ← heq]
  rcases hstop with rfl | hstuck
  · rfl
  · obtain ⟨more, hmore⟩ := hpre
    rw [← hmore, List.foldl_append]
    refine hstuck.foldl_shift htext fun token hm => ?_
    have hscan := hcut.scan
    rw [← hafter, ← hmore, List.append_assoc, List.append_cancel_left_eq] at hscan
    rw [← hscan]
    exact List.mem_append_left _ hm

end Draft

end Typeahead
