import Typeahead.Proofs.Accepting
import Typeahead.Proofs.Lowering
import Typeahead.Proofs.Walking

/-!
# The case of what is typed

A session makes its guesses from the text in lower case. So the attributes that it offers are those
that the path in lower case may stand for (`Session.offers_lowered`), which is why a segment that
names an attribute to the letter may be followed through another one (`Session.exact_name_passed`).

This makes a difference only at a hop, and only where the names of a type are told apart by case:
without a dot there is no hop (`Path.resolve_lower_of_notMem`), and in a table whose names differ in
more than case a segment names the same attribute however it is written
(`Path.lookup_of_unambiguous`). A capital sigma is the exception, since its lower case depends on
what comes after the dot.
-/

namespace Typeahead

/-- No two attributes have names that differ in case only. -/
def AttributeTable.Unambiguous (table : AttributeTable) : Prop :=
  ∀ name ∈ table.keys, ∀ other ∈ table.keys, Text.lower name = Text.lower other → name = other

/-- No type has two attributes whose names differ in case only. -/
def Schema.Unambiguous (schema : Schema) : Prop :=
  ∀ type table, schema type = some table → table.Unambiguous

namespace Path

variable {schema : Schema} {root t u : Text} {table : AttributeTable}

/-- The place with its fragment in lower case. -/
def lowered (p : Path) : Path := { p with fragment := Text.lower p.fragment }

theorem dot_notMem_lower (h : '.' ∉ t) : '.' ∉ Text.lower t :=
  fun hdot => h (Text.mem_of_mem_lowerAfter (by decide) (by decide) hdot)

/-- Where names differ in more than case, looking for the exact name first makes no difference. -/
theorem lookup_of_unambiguous (h : table.Unambiguous) (segment : Text) :
    lookup table segment =
      table.entries.find? fun e => Text.lower e.1 = Text.lower segment := by
  unfold lookup
  split
  · next attr hattr =>
    have hmem : (segment, attr) ∈ table.entries := OrderedMap.mem_entries_of_get? hattr
    rcases hfind : table.entries.find? fun e => Text.lower e.1 = Text.lower segment with _ | ⟨n, a⟩
    · exact absurd (decide_eq_true rfl) (List.find?_eq_none.1 hfind _ hmem)
    · have hfound : (n, a) ∈ table.entries := List.mem_of_find?_eq_some hfind
      have hlower : Text.lower n = Text.lower segment := by simpa using List.find?_some hfind
      obtain rfl : n = segment :=
        h n (List.mem_map_of_mem hfound) segment (List.mem_map_of_mem hmem) hlower
      have hvalue := OrderedMap.get?_eq_some_of_mem hfound
      rw [hattr] at hvalue
      cases hvalue
      exact hfind.symm
  · rfl

theorem hop?_lower (h : table.Unambiguous) (segment : Text) :
    hop? table (Text.lower segment) = hop? table segment := by
  rw [hop?, hop?, lookup_of_unambiguous h, lookup_of_unambiguous h, Text.lower_lower]

theorem resolve_lower_of_notMem (h : '.' ∉ t) :
    resolve schema root (Text.lower t) = (resolve schema root t).map lowered := by
  rw [resolve_of_notMem (dot_notMem_lower h), resolve_of_notMem h, Option.map_map]
  rfl

/-- Where names differ in more than case, a path leads to the same place in lower case. -/
theorem resolve_lower (h : schema.Unambiguous) (hsigma : Text.capitalSigma ∉ t) :
    resolve schema root (Text.lower t) = (resolve schema root t).map lowered := by
  induction t using Text.dottedInduction generalizing root with
  | last t hdot => exact resolve_lower_of_notMem hdot
  | hop segment rest hdot ih =>
    rw [Text.lower_append_dot hsigma, resolve_hop (dot_notMem_lower hdot), resolve_hop hdot]
    simp only [List.mem_append, List.mem_cons, not_or] at hsigma
    rcases hroot : schema root with _ | table
    · rfl
    simp only [Option.bind_some, hop?_lower (h root table hroot)]
    rcases hop? table segment with _ | hop
    · rfl
    · simp only [Option.bind_some, ih hsigma.2.2, Option.map_map]
      rfl

/-- The case of the fragment never counts. -/
theorem guesses_of_lowered (h : resolve schema root u = (resolve schema root t).map lowered)
    (qualified : Bool) : guesses schema root qualified u = guesses schema root qualified t := by
  unfold guesses
  rw [h]
  rcases resolve schema root t with _ | p
  · rfl
  · simp only [Option.map_some, lowered, matching, Text.lower_lower]
    rfl

theorem guesses_lower (h : Text.lower t = t ∨ '.' ∉ t ∨
      Text.capitalSigma ∉ t ∧ schema.Unambiguous) (qualified : Bool) :
    guesses schema root qualified (Text.lower t) = guesses schema root qualified t := by
  rcases h with h | h | ⟨hsigma, h⟩
  · rw [h]
  · exact guesses_of_lowered (resolve_lower_of_notMem h) qualified
  · exact guesses_of_lowered (resolve_lower h hsigma) qualified

end Path

namespace Position

/-- An attribute is predicted at the start of an expression only. -/
theorem predict_of_property_mem {position : Position} {inside : Bool}
    (h : .property ∈ position.predict .standard inside) :
    position.predict .standard inside = [.openParen, .property, .notOp, .typeIs] := by
  revert h
  cases position <;> cases inside <;> decide

end Position

namespace Session

/-- The attributes that a session offers. Whatever it went through, where an attribute may come next
it offers a parenthesis, the attributes that the text in lower case may stand for, and two keywords.
These are the attributes that the text stands for as it was typed if it is in lower case, if it has
no dot, or if it has no capital sigma and no two attributes of a type have names that differ in case
only. -/
theorem offers_lowered (validator : Grammar → List Token → Except QueryError (Option Tree))
    (schema : Schema) (options : Options) (initial : Option Text) (calls : List Call) :
    let s := (start { validator, schema := some schema, options } initial).after calls
    .property ∈ s.snapshot.predictions → ∀ root, s.root = some root →
      s.snapshot.predictions = [.openParen, .property, .notOp, .typeIs] ∧
      s.snapshot.guesses =
        guessesFor s.setup s.root (Text.lower s.draft.text) .openParen ++
        Path.guesses schema root options.qualified (Text.lower s.draft.text) ++
        [.notOp, .typeIs].flatMap (guessesFor s.setup s.root (Text.lower s.draft.text)) ∧
      (Text.lower s.draft.text = s.draft.text ∨ '.' ∉ s.draft.text ∨
          Text.capitalSigma ∉ s.draft.text ∧ schema.Unambiguous →
        Path.guesses schema root options.qualified (Text.lower s.draft.text) =
          Path.guesses schema root options.qualified s.draft.text) := by
  intro s hproperty root hroot
  have hplain : s.Plain := (plain_start validator (some schema) options initial).after calls
  have hsettled : s.Settled := (settle_settled _).after calls
  have hsetup : s.setup = { validator, schema := some schema, options } := by
    rw [after_setup, start_setup]
  obtain ⟨position, hposition⟩ := Position.ofLast_standard s.draft.tokens.getLast?
  rw [← hplain.grammar] at hposition
  obtain ⟨-, hpredictions, hguesses⟩ := hsettled.coherent.placed position hposition
  rw [predictNext, hposition, hplain.grammar] at hpredictions
  have hkinds : s.snapshot.predictions = [.openParen, .property, .notOp, .typeIs] := by
    rw [← Except.ok.inj hpredictions] at hproperty ⊢
    exact Position.predict_of_property_mem hproperty
  have hattributes : guessesFor s.setup s.root (Text.lower s.draft.text) .property =
      Path.guesses schema root options.qualified (Text.lower s.draft.text) := by
    rw [guessesFor, if_pos rfl, hsetup, hroot]
    rfl
  refine ⟨hkinds, ?_, fun h => Path.guesses_lower h options.qualified⟩
  rw [hguesses, hkinds, guesses, List.flatMap_cons, List.flatMap_cons, hattributes,
    List.append_assoc]

/-- Someone with two relations whose names differ in case only. -/
def twinSchema : Schema := fun type =>
  if type = "Person".toList then some (.ofList [("dog".toList, .toOne "Dog".toList),
    ("DOG".toList, .toOne "Show".toList)])
  else if type = "Dog".toList then some (.ofList [("bowl".toList, .scalar "String".toList)])
  else if type = "Show".toList then some (.ofList [("prize".toList, .scalar "String".toList)])
  else none

theorem offers_lowered_word :
    let s := (start { schema := some twinSchema } (some "Person".toList)).after
      [.setText "NOT (Do".toList]
    .property ∈ s.snapshot.predictions ∧ s.root = some "Person".toList ∧
      s.draft.text = "Do".toList ∧
      s.snapshot.guesses = Path.guesses twinSchema "Person".toList false "Do".toList := by
  intro s
  have hproperty : .property ∈ s.snapshot.predictions := by decide +kernel
  have hroot : s.root = some "Person".toList := by decide +kernel
  have htext : s.draft.text = "Do".toList := by decide +kernel
  have hopen : guessesFor s.setup s.root (Text.lower s.draft.text) .openParen = [] := by
    decide +kernel
  have hwords : [TokenKind.notOp, .typeIs].flatMap
      (guessesFor s.setup s.root (Text.lower s.draft.text)) = [] := by decide +kernel
  obtain ⟨-, hguesses, hsame⟩ := offers_lowered Tree.ofTokens twinSchema {} (some "Person".toList)
    [.setText "NOT (Do".toList] hproperty _ hroot
  refine ⟨hproperty, hroot, htext, ?_⟩
  rw [hguesses, hopen, hwords, hsame (.inr (.inl (by rw [htext]; decide))), htext]
  exact List.append_nil _

/-- A name typed to the letter is passed over for another one: `DOG` leads where `dog` leads. -/
theorem exact_name_passed :
    let s := (start { schema := some twinSchema } (some "Person".toList)).after
      [.setText "DOG.".toList]
    .property ∈ s.snapshot.predictions ∧ s.root = some "Person".toList ∧
      s.draft.text = "DOG.".toList ∧
      Path.guesses twinSchema "Person".toList false s.draft.text = ["prize".toList] ∧
      s.snapshot.guesses = ["bowl".toList] := by
  decide +kernel

end Session

end Typeahead
