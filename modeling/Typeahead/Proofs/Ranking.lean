import Mathlib.Data.List.Infix
import Mathlib.Data.List.Nodup
import Typeahead.Proofs.Walking

/-!
# Which attributes are offered, and in which order

A name matches a fragment if it contains it, whatever the case of the letters. The two searches that
look for the fragment, one at the front and one for its first place, share the matching names
between them (`Text.find?_any_iff`), so that each of them is offered once (`Path.mem_matching`,
`Path.nodup_matching`) and those that start with the fragment go first
(`Path.pairwise_matching`). A path in front of the names changes none of this
(`Path.qualifier_append`).
-/

namespace Typeahead

namespace Text

variable {t start piece : Text}

theorem startsWith_iff : startsWith t start = true ↔ start <+: t := by
  unfold startsWith
  fun_induction dropPrefix? start t with
  | case1 t => simp
  | case2 s start => simp
  | case3 start c t ih => rw [ih, List.cons_prefix_cons, eq_self, true_and]
  | case4 s start c t hne => simp [hne]

theorem isSome_find?_iff : (find? piece t).isSome = true ↔ piece <:+: t := by
  induction t with
  | nil =>
    rw [find?, List.infix_nil]
    split_ifs with h <;> simp [h]
  | cons c t ih =>
    rw [find?, List.infix_cons_iff, ← startsWith_iff]
    split_ifs with h
    · simp [h]
    · simp [h, ih]

/-- The first place of a piece is not the front exactly if it occurs further in only. -/
theorem find?_any_iff : (find? piece t).any (0 < ·) = true ↔ piece <:+: t ∧ ¬ piece <+: t := by
  cases t with
  | nil =>
    rw [find?, List.infix_nil, List.prefix_nil]
    split_ifs with h <;> simp [h]
  | cons c t =>
    rw [find?, List.infix_cons_iff, ← startsWith_iff]
    split_ifs with h
    · simp [h]
    · rw [← isSome_find?_iff]
      cases find? piece t <;> simp [h]

theorem join_concat (sep name : Text) : ∀ {ts : List Text}, ts ≠ [] →
    join sep ts ++ sep ++ name = sep.intercalate (ts ++ [name])
  | [t], _ => by simp [join]
  | t :: u :: ts, _ => by
    have ih := join_concat sep name (List.cons_ne_nil u ts)
    rw [join, List.cons_append, List.cons_append, List.intercalate_cons_cons, ← List.cons_append,
      ← ih]
    · simp only [List.append_assoc]
    · simp

end Text

namespace Path

variable {schema : Schema} {root t name fragment : Text} {names : List Text} {p : Path}

theorem matching_eq (names : List Text) (fragment : Text) : matching names fragment =
    names.filter (fun name => Text.lower fragment <+: Text.lower name) ++
      names.filter (fun name => Text.lower fragment <:+: Text.lower name ∧
        ¬ Text.lower fragment <+: Text.lower name) := by
  have hstart : ∀ name, Text.startsWith (Text.lower name) (Text.lower fragment) =
      decide (Text.lower fragment <+: Text.lower name) := by
    intro name
    rw [Bool.eq_iff_iff, Text.startsWith_iff, decide_eq_true_iff]
  have hinner : ∀ name, (Text.find? (Text.lower fragment) (Text.lower name)).any (0 < ·) =
      decide (Text.lower fragment <:+: Text.lower name ∧
        ¬ Text.lower fragment <+: Text.lower name) := by
    intro name
    rw [Bool.eq_iff_iff, Text.find?_any_iff, decide_eq_true_iff]
  simp only [matching, hstart, hinner]

theorem mem_matching : name ∈ matching names fragment ↔
    name ∈ names ∧ Text.lower fragment <:+: Text.lower name := by
  simp only [matching_eq, List.mem_append, List.mem_filter, decide_eq_true_eq]
  constructor
  · rintro (⟨hname, hstart⟩ | ⟨hname, hin, -⟩)
    · exact ⟨hname, hstart.isInfix⟩
    · exact ⟨hname, hin⟩
  · rintro ⟨hname, hin⟩
    by_cases hstart : Text.lower fragment <+: Text.lower name
    · exact .inl ⟨hname, hstart⟩
    · exact .inr ⟨hname, hin, hstart⟩

theorem nodup_matching (h : names.Nodup) : (matching names fragment).Nodup := by
  rw [matching_eq, List.nodup_append]
  refine ⟨h.filter _, h.filter _, ?_⟩
  rintro name hstart _ hinner rfl
  simp only [List.mem_filter, decide_eq_true_eq] at hstart hinner
  exact hinner.2.2 hstart.2

/-- A name that starts with the fragment is offered before those that have it further in. -/
theorem pairwise_matching : (matching names fragment).Pairwise fun name later =>
    Text.lower fragment <+: Text.lower later → Text.lower fragment <+: Text.lower name := by
  rw [matching_eq, List.pairwise_append]
  refine ⟨?_, ?_, ?_⟩
  · refine List.pairwise_of_forall_mem_list fun name hname _ _ _ => ?_
    simpa using (List.mem_filter.1 hname).2
  · refine List.pairwise_of_forall_mem_list fun _ _ later hlater hstart => ?_
    have hnot := (List.mem_filter.1 hlater).2
    rw [decide_eq_true_eq] at hnot
    exact absurd hstart hnot.2
  · intro name hname _ _ _
    simpa using (List.mem_filter.1 hname).2

theorem qualifier_append (p : Path) (name : Text) :
    p.qualifier ++ name = ['.'].intercalate (p.segments ++ [name]) := by
  unfold qualifier
  split_ifs with h
  · rw [List.isEmpty_iff.1 h]
    simp
  · exact Text.join_concat ['.'] name (by simpa using h)

theorem guesses_of_resolve (h : resolve schema root t = some p) (qualified : Bool) :
    guesses schema root qualified t = (matching p.attributes.keys p.fragment).map
      fun name => if qualified then ['.'].intercalate (p.segments ++ [name]) else name := by
  simp only [guesses, h]
  cases qualified
  · simp
  · simp [qualifier_append]

/-- What is offered where a path leads: the names that start with the fragment, then those that have
it further in, both in the order of the table. So each attribute whose name contains the fragment is
offered once, no other is, and those that start with it go first. A qualified name is the path to it
with the name at its end. Where the path leads nowhere nothing is offered. -/
theorem guesses_ranked (schema : Schema) (root t : Text) :
    (resolve schema root t = none → ∀ qualified, guesses schema root qualified t = []) ∧
    ∀ p, resolve schema root t = some p →
      let offered := guesses schema root false t
      let partly := Text.lower p.fragment
      (∃ front, t = front ++ p.fragment ∧ Text.EndsAtDot front ∧ '.' ∉ p.fragment) ∧
      offered = p.attributes.keys.filter (fun name => partly <+: Text.lower name) ++
        p.attributes.keys.filter (fun name => partly <:+: Text.lower name ∧
          ¬ partly <+: Text.lower name) ∧
      offered.Nodup ∧
      (∀ name, name ∈ offered ↔ name ∈ p.attributes.keys ∧ partly <:+: Text.lower name) ∧
      (offered.Pairwise fun name later =>
        partly <+: Text.lower later → partly <+: Text.lower name) ∧
      guesses schema root true t =
        offered.map (fun name => ['.'].intercalate (p.segments ++ [name])) ∧
      (guesses schema root true t).Nodup := by
  refine ⟨fun hnone qualified => by rw [guesses, hnone], fun p hp => ?_⟩
  intro offered partly
  have hoffered : offered = matching p.attributes.keys p.fragment := by
    simp [offered, guesses_of_resolve hp]
  have hqualified : guesses schema root true t =
      offered.map fun name => ['.'].intercalate (p.segments ++ [name]) := by
    simp [hoffered, guesses_of_resolve hp]
  have hnodup : offered.Nodup := hoffered ▸ nodup_matching p.attributes.nodup
  have hinjective : Function.Injective fun name => ['.'].intercalate (p.segments ++ [name]) := by
    intro name name' heq
    simp only [← qualifier_append] at heq
    exact List.append_cancel_left heq
  refine ⟨fragment_of_resolve hp, hoffered.trans (matching_eq _ _), hnodup, fun name => ?_, ?_,
    hqualified, ?_⟩
  · rw [hoffered, mem_matching]
  · rw [hoffered]
    exact pairwise_matching
  · rw [hqualified]
    exact hnodup.map hinjective

theorem guesses_ranked_household :
    let t := "bestfriend.D".toList
    ∃ p, resolve household "Person".toList t = some p ∧
      p.attributes.keys = ["name".toList, "bestFriend".toList, "dogs".toList] ∧
      guesses household "Person".toList false t = ["dogs".toList, "bestFriend".toList] ∧
      guesses household "Person".toList true t =
        ["bestFriend.dogs".toList, "bestFriend.bestFriend".toList] := by
  intro t
  have hplace : (resolve household "Person".toList t).map
      (fun p => (p.segments, p.fragment, p.attributes.keys)) =
        some (["bestFriend".toList], ['D'],
          ["name".toList, "bestFriend".toList, "dogs".toList]) := by decide +kernel
  obtain ⟨p, hp, hparts⟩ := Option.map_eq_some_iff.1 hplace
  obtain ⟨hsegments, hfragment, hkeys⟩ : _ ∧ _ ∧ _ := by simpa only [Prod.mk.injEq] using hparts
  obtain ⟨-, hoffered, -, -, -, hqualified, -⟩ :=
    (guesses_ranked household "Person".toList t).2 p hp
  rw [hfragment, hkeys] at hoffered
  have hnames : guesses household "Person".toList false t =
      ["dogs".toList, "bestFriend".toList] := hoffered.trans (by decide +kernel)
  rw [hnames, hsegments] at hqualified
  exact ⟨p, hp, hkeys, hnames, hqualified.trans (by decide +kernel)⟩

end Path

end Typeahead
