import Mathlib.Data.List.Forall2
import Typeahead.Proofs.Hierarchy

/-!
# What a table says

The requests made so far and the replies to them tell what each type declares itself: what it was
last defined with and, laid over that, what it was reopened with since (`Registry.Declared`). This
is what the definitions hold (`Definitions.Recorded.serveAll`).

A table is laid together in the same way, from the farthest ancestor down to the type itself
(`Definitions.overlaid_merged`). Where tables are laid over one another a key keeps the place that
the first of them gives it (`OrderedMap.Overlaid.keys_eq`) and takes the value that the last of them
gives it (`OrderedMap.Overlaid.get?_eq`). So the place of an attribute comes from the farthest type
that declares it and its value from the nearest one (`Registry.table_along_ancestry`).
-/

namespace Typeahead

/-! ### Tables laid over one another -/

namespace OrderedMap

variable {α β : Type} [DecidableEq α]

/-- The third map is the first one with the second laid over it: known keys keep their places and
take the values of the second map, and its new keys follow in their order. -/
structure Overlay (base upper result : OrderedMap α β) : Prop where
  keys : result.keys = base.keys ++ upper.keys.filter (!base.contains ·)
  get? : ∀ a, result.get? a = (upper.get? a).or (base.get? a)

theorem overlay_insertAll (m n : OrderedMap α β) : Overlay m n (m.insertAll n.entries) :=
  ⟨keys_insertAll m n, get?_insertAll m n⟩

/-- Some maps are laid over the first one, each over all before it. -/
inductive Overlaid (base : OrderedMap α β) : List (OrderedMap α β) → OrderedMap α β → Prop
  | nil : Overlaid base [] base
  | concat {uppers : List (OrderedMap α β)} {upper middle result : OrderedMap α β} :
      Overlaid base uppers middle → Overlay middle upper result →
      Overlaid base (uppers ++ [upper]) result

theorem eraseDups_of_nodup {α : Type} [BEq α] [LawfulBEq α] :
    ∀ {as : List α}, as.Nodup → as.eraseDups = as
  | [], _ => List.eraseDups_nil
  | a :: as, h => by
    rw [List.nodup_cons] at h
    have hfilter : as.filter (fun b => !b == a) = as := by
      rw [List.filter_eq_self]
      intro b hb
      have hne : b ≠ a := fun heq => h.1 (heq ▸ hb)
      simpa using hne
    rw [List.eraseDups_cons, hfilter, eraseDups_of_nodup h.2]

namespace Overlaid

variable {base middle result : OrderedMap α β} {uppers uppers' : List (OrderedMap α β)}

theorem append (h : Overlaid base uppers middle) (h' : Overlaid middle uppers' result) :
    Overlaid base (uppers ++ uppers') result := by
  induction h' with
  | nil => rwa [List.append_nil]
  | concat _ hupper ih =>
    rw [← List.append_assoc]
    exact ih.concat hupper

/-- The keys are listed in the order in which they come first. -/
theorem keys_eq [BEq α] [LawfulBEq α] (h : Overlaid base uppers result) :
    result.keys = (base.keys ++ uppers.flatMap keys).eraseDups := by
  induction h with
  | nil =>
    rw [List.flatMap_nil, List.append_nil]
    exact (eraseDups_of_nodup base.nodup).symm
  | @concat uppers upper middle result _ hupper ih =>
    have hremove : upper.keys.removeAll (base.keys ++ uppers.flatMap keys) =
        upper.keys.filter (!middle.contains ·) := by
      apply List.filter_congr
      intro a _
      have hmem : a ∈ base.keys ++ uppers.flatMap keys ↔ middle.contains a = true := by
        rw [← mem_keys_iff, ih, List.mem_eraseDups]
      rw [Bool.eq_iff_iff, Bool.not_eq_true', Bool.not_eq_true', ← Bool.not_eq_true,
        ← Bool.not_eq_true, List.elem_iff, hmem]
    have hnodup : (upper.keys.filter (!middle.contains ·)).Nodup :=
      List.filter_sublist.nodup upper.nodup
    rw [List.flatMap_append, List.flatMap_singleton, ← List.append_assoc, List.eraseDups_append,
      hremove, eraseDups_of_nodup hnodup, ← ih]
    exact hupper.keys

/-- A key has the value that the last map with that key gives it. -/
theorem get?_eq (h : Overlaid base uppers result) (a : α) :
    result.get? a = (uppers.reverse.findSome? (·.get? a)).or (base.get? a) := by
  induction h with
  | nil => rfl
  | concat _ hupper ih =>
    rw [hupper.get?, ih, List.reverse_append, List.reverse_singleton, List.findSome?_append,
      List.findSome?_singleton, Option.or_assoc]

end Overlaid

end OrderedMap

open OrderedMap (Overlay Overlaid)

/-! ### What has been declared -/

namespace Registry

/-- What a request that was granted defines a type with. -/
def defined? (name : Text) : Request × Reply → Option AttributeTable
  | (.define n attributes, .done (.ok _)) => if n = name then some attributes else none
  | (.extend _ n attributes, .done (.ok _)) => if n = name then some attributes else none
  | _ => none

/-- What a request that was granted reopens a type with. -/
def reopened? (name : Text) : Request × Reply → Option AttributeTable
  | (.reopen n attributes, .done (.ok _)) => if n = name then some attributes else none
  | _ => none

/-- The own attributes of a type, as told by requests and the replies to them: those it was last
defined with and, laid over them in turn, those it was reopened with since. -/
def Declared (log : List (Request × Reply)) (name : Text) (own : AttributeTable) : Prop :=
  ∃ before entry since first, log = before ++ entry :: since ∧ defined? name entry = some first ∧
    (∀ e ∈ since, defined? name e = none) ∧ Overlaid first (since.filterMap (reopened? name)) own

variable {log : List (Request × Reply)} {e : Request × Reply} {name : Text}
  {own own' more : AttributeTable}

theorem declared_of_defined? (h : defined? name e = some own) : Declared (log ++ [e]) name own :=
  ⟨log, e, [], own, rfl, h, by simp, .nil⟩

/-- What is granted after the last definition is laid over what there is. -/
theorem Declared.concat (h : Declared log name own) (hdefined : defined? name e = none)
    (hown : Overlaid own (reopened? name e).toList own') : Declared (log ++ [e]) name own' := by
  obtain ⟨before, entry, since, first, rfl, hentry, hsince, hfirst⟩ := h
  refine ⟨before, entry, since ++ [e], first, by simp, hentry, ?_, ?_⟩
  · rw [List.forall_mem_append]
    exact ⟨hsince, by rwa [List.forall_mem_singleton]⟩
  · have hlast : [e].filterMap (reopened? name) = (reopened? name e).toList := by
      rcases h : reopened? name e with _ | more <;> simp [h]
    rw [List.filterMap_append, hlast]
    exact hfirst.append hown

theorem Declared.other (h : Declared log name own) (hdefined : defined? name e = none)
    (hmore : reopened? name e = none) : Declared (log ++ [e]) name own :=
  h.concat hdefined (hmore ▸ .nil)

theorem Declared.reopened (h : Declared log name own) (hdefined : defined? name e = none)
    (hmore : reopened? name e = some more) (hown : Overlay own more own') :
    Declared (log ++ [e]) name own' :=
  h.concat hdefined (hmore ▸ .concat .nil hown)

end Registry

namespace Definitions

open Registry (Request Reply Declared defined? reopened? declared_of_defined?)

variable {d : Definitions} {log : List (Request × Reply)} {e : Request × Reply} {name n : Text}
  {type : RecordType} {chain : List RecordType}

/-- The definitions hold what has been declared. -/
def Recorded (d : Definitions) (log : List (Request × Reply)) : Prop :=
  ∀ n type, d.get? n = some type → Declared log n type.attributes

theorem Recorded.other (h : Recorded d log) (hdefined : ∀ n, defined? n e = none)
    (hmore : ∀ n, reopened? n e = none) : Recorded d (log ++ [e]) :=
  fun n type htype => (h n type htype).other (hdefined n) (hmore n)

theorem Recorded.insert (h : Recorded d log)
    (hname : Declared (log ++ [e]) name type.attributes)
    (hother : ∀ n, n ≠ name → defined? n e = none ∧ reopened? n e = none) :
    Recorded (d.insert name type) (log ++ [e]) := by
  intro n type' htype
  rw [OrderedMap.get?_insert] at htype
  split_ifs at htype with hn
  · cases htype
    exact hn ▸ hname
  · obtain ⟨hdefined, hmore⟩ := hother n hn
    exact (h n type' htype).other hdefined hmore

theorem Recorded.serve (h : Recorded d log) (request : Request) :
    Recorded (d.serve request).2 (log ++ [(request, (d.serve request).1)]) := by
  cases request with
  | define name attributes =>
    exact h.insert (declared_of_defined? (if_pos rfl)) fun n hn => ⟨if_neg (Ne.symm hn), rfl⟩
  | extend parent name attributes =>
    simp only [Definitions.serve]
    split_ifs
    · exact h.other (fun _ => rfl) (fun _ => rfl)
    · exact h.other (fun _ => rfl) (fun _ => rfl)
    · exact h.insert (declared_of_defined? (if_pos rfl)) fun n hn => ⟨if_neg (Ne.symm hn), rfl⟩
  | reopen name attributes =>
    simp only [Definitions.serve]
    rcases hname : d.get? name with _ | old
    · exact h.other (fun _ => rfl) (fun _ => rfl)
    · have hold := h name old hname
      exact h.insert (hold.reopened rfl (if_pos rfl) (OrderedMap.overlay_insertAll _ _))
        fun n hn => ⟨rfl, if_neg (Ne.symm hn)⟩
  | attributes | contains | recordTypes | subtypes | parent =>
    exact h.other (fun _ => rfl) (fun _ => rfl)

theorem Recorded.serveAll : ∀ {d : Definitions} {log : List (Request × Reply)},
    Recorded d log → ∀ requests : List Request,
      Recorded (d.serveAll requests).2 (log ++ requests.zip (d.serveAll requests).1)
  | _, _, h, [] => by simpa [Definitions.serveAll] using h
  | d, log, h, request :: requests => by
    have hrest := (h.serve request).serveAll requests
    rw [List.append_assoc, List.singleton_append] at hrest
    exact hrest

/-! ### Tables along the way up -/

/-- A type and its ancestors, nearest first. -/
inductive Ancestry (d : Definitions) : Text → List Text → Prop
  | root {n : Text} : d.contains n = true → d.parent? n = none → Ancestry d n [n]
  | child {n p : Text} {names : List Text} : d.parent? n = some p → Ancestry d p names →
      Ancestry d n (n :: names)

theorem Chain.ancestry (h : d.Chain n chain) (hlog : Recorded d log) :
    ∃ names, d.Ancestry n names ∧ names.Forall₂ (Declared log) (chain.map (·.attributes)) := by
  induction h with
  | @root n type htype hroot =>
    refine ⟨[n], .root (OrderedMap.contains_iff.2 ⟨type, htype⟩) ?_, .cons (hlog n type htype) .nil⟩
    rw [parent?_of_get? htype, hroot]
  | @child n p type chain htype hp _ ih =>
    obtain ⟨names, hnames, hdeclared⟩ := ih
    refine ⟨n :: names, .child ?_ hnames, .cons (hlog n type htype) hdeclared⟩
    rw [parent?_of_get? htype, hp]

/-- The attributes along a chain are laid over one another, those of the farthest type first. -/
theorem overlaid_merged : ∀ chain : List RecordType,
    Overlaid .empty (chain.map (·.attributes)).reverse (merged chain)
  | [] => .nil
  | type :: chain => by
    rw [List.map_cons, List.reverse_cons]
    exact (overlaid_merged chain).concat (OrderedMap.overlay_insertAll _ _)

end Definitions

namespace Registry

/-- Whatever was asked of a registry, a known type has the attributes that it and its ancestors
declare. They are listed in the order in which they come first when one starts with the farthest
ancestor, and each is the one that the nearest of the types declares. In other words, a type has its
parent's attributes with its own laid over them. -/
theorem table_along_ancestry (requests : List Request) :
    let r := (empty.serveAll requests).2
    let log := requests.zip (empty.serveAll requests).1
    ∀ n, r.contains n = true → ∃ names owns table, r.definitions.Ancestry n names ∧
      names.Forall₂ (Declared log) owns ∧ (r.attributes n).1 = some table ∧
      table.keys = (owns.reverse.flatMap OrderedMap.keys).eraseDups ∧
      (∀ a, table.get? a = owns.findSome? (·.get? a)) ∧
      ∀ p, r.parent? n = some p → ∃ base own, (r.attributes p).1 = some base ∧
        Declared log n own ∧ Overlay base own table := by
  intro r log n hn
  have h : r.WellFormed := wellFormed_empty.serveAll requests
  have hlog : r.definitions.Recorded log := by
    obtain ⟨hreplies, hdefinitions, -⟩ := wellFormed_empty.current.serveAll requests
    have hempty : Definitions.Recorded .empty [] := fun n type htype => by cases htype
    simp only [r, log, hreplies, hdefinitions]
    exact hempty.serveAll requests
  obtain ⟨chain, hchain⟩ := h.forest.exists_chain hn
  obtain ⟨names, hnames, hdeclared⟩ := hchain.ancestry hlog
  have hmerged := Definitions.overlaid_merged chain
  refine ⟨names, _, Definitions.merged chain, hnames, hdeclared, ?_, ?_, fun a => ?_,
    fun p hp => ?_⟩
  · rw [(h.current.attributes n).1, hchain.flatten]
  · exact hmerged.keys_eq
  · rw [hmerged.get?_eq, List.reverse_reverse, OrderedMap.get?_empty, Option.or_none]
  · rcases hchain with ⟨htype, hroot⟩ | ⟨htype, hp', habove⟩
    · cases hroot.symm.trans ((Definitions.parent?_of_get? htype).symm.trans hp)
    · cases hp'.symm.trans ((Definitions.parent?_of_get? htype).symm.trans hp)
      refine ⟨Definitions.merged _, _, ?_, hlog n _ htype, OrderedMap.overlay_insertAll _ _⟩
      rw [(h.current.attributes p).1, habove.flatten]

/-- A type whose parent is reopened after it. -/
theorem table_along_ancestry_reopened :
    let requests := [
      Request.define ['A'] (.ofList [(['x'], .scalar ['s']), (['z'], .scalar ['s'])]),
      .extend ['A'] ['B'] (.ofList [(['y'], .toOne ['A']), (['x'], .scalar ['n'])]),
      .reopen ['A'] (.ofList [(['w'], .scalar ['s']), (['z'], .scalar ['n'])])]
    let r := (empty.serveAll requests).2
    let log := requests.zip (empty.serveAll requests).1
    r.contains ['B'] = true ∧
      (r.attributes ['B']).1.map OrderedMap.entries = some [(['x'], .scalar ['n']),
        (['z'], .scalar ['n']), (['w'], .scalar ['s']), (['y'], .toOne ['A'])] ∧
      ∃ names owns table, r.definitions.Ancestry ['B'] names ∧
        names.Forall₂ (Declared log) owns ∧ (r.attributes ['B']).1 = some table ∧
        table.keys = (owns.reverse.flatMap OrderedMap.keys).eraseDups ∧
        ∀ a, table.get? a = owns.findSome? (·.get? a) := by
  intro requests r log
  have hknown : r.contains ['B'] = true := by decide +kernel
  obtain ⟨names, owns, table, hnames, howns, htable, hkeys, hget, -⟩ :=
    table_along_ancestry requests ['B'] hknown
  refine ⟨hknown, ?_, names, owns, table, hnames, howns, htable, hkeys, hget⟩
  rw [((wellFormed_empty.serveAll requests).current.attributes ['B']).1]
  decide +kernel

end Registry

end Typeahead
