import Typeahead.Query.Tree
import Typeahead.Schema.Path
import Typeahead.Session.Draft
import Typeahead.Session.Snapshot
import Typeahead.Token.Scan

/-!
# Sessions

A session follows the typing of one query. Each change to the draft is followed by `settle`: the
snapshot is made anew from the draft and handed to every observer. If the last token leads to no
position the change still stands, but the call fails, the snapshot has no guesses, and nobody is
told.
-/

namespace Typeahead

/-- How guesses are made. -/
structure Options where
  /-- Attributes are offered with the path that leads to them. -/
  qualified : Bool := false
  /-- Keywords that are never offered. -/
  excluded : List TokenKind := [.placeholder, .yes, .no]
  deriving DecidableEq

/-- What a session works with. -/
structure Setup where
  grammar : Grammar := .standard
  tokenizer : Grammar → Text → List Token := Token.scan
  validator : Grammar → List Token → Except QueryError (Option Tree) := Tree.ofTokens
  /-- The schema that attributes are looked up in. -/
  schema : Option Schema := none
  options : Options := {}

/-- Following the typing of one query. -/
structure Session where
  setup : Setup
  /-- The record type from which attribute paths start. -/
  root : Option Text
  draft : Draft
  /-- The state as last settled. -/
  snapshot : Snapshot
  /-- Why the last settling failed. -/
  failure : Option GuessError
  /-- The number of observers. -/
  observers : Nat

/-- A snapshot handed to an observer. -/
structure Notice where
  observer : Nat
  snapshot : Snapshot

/-- What a call leads to: the session after it, its result, and who was told in which order. -/
structure Outcome where
  session : Session
  result : Except GuessError Snapshot
  notices : List Notice

namespace Session

/-- The attributes offered for a text. -/
def attributeGuesses (setup : Setup) (root : Option Text) (t : Text) : List Text :=
  match setup.schema, root with
  | some schema, some root => Path.guesses schema root setup.options.qualified t
  | _, _ => []

/-- What is offered for a kind of token, given the text typed so far in lower case. -/
def guessesFor (setup : Setup) (root : Option Text) (t : Text) (kind : TokenKind) : List Text :=
  if kind = .property then attributeGuesses setup root t
  else if (setup.grammar.get? kind).any (·.reserved) then
    if Text.startsWith (Text.lower kind.name) t ∧ kind ∉ setup.options.excluded then [kind.name]
    else []
  else if kind = .openParen ∧ (t = [] ∨ t = ['(']) then [['(']]
  else if kind = .closeParen ∧ (t = [] ∨ t = [')']) then [[')']]
  else []

/-- What is offered for the kinds predicted after a draft. -/
def guesses (setup : Setup) (root : Option Text) (t : Text) (kinds : List TokenKind) :
    List Text :=
  kinds.flatMap (guessesFor setup root (Text.lower t))

/-- The part of a snapshot that needs no position. -/
def bareSnapshot (setup : Setup) (d : Draft) : Snapshot where
  text := d.text
  tokens := d.tokens
  position := none
  predictions := []
  guesses := []
  isValid := (setup.validator setup.grammar d.tokens).isOk
  openCount := Nesting.openCount d.tokens
  fullText := fullText d.tokens d.text (Nesting.openCount d.tokens)

/-- The snapshot of a draft, and the reason if it has no position. -/
def snapshotOf (setup : Setup) (root : Option Text) (d : Draft) : Snapshot × Option GuessError :=
  match Position.ofLast setup.grammar d.tokens.getLast? with
  | .error e => (bareSnapshot setup d, some e)
  | .ok position =>
    let kinds := position.predict setup.grammar (Nesting.endsInside d.tokens)
    ({ bareSnapshot setup d with
        position := some position
        predictions := kinds
        guesses := guesses setup root d.text kinds }, none)

/-- Makes the snapshot anew and tells the observers. -/
def settle (s : Session) : Outcome :=
  let (snapshot, failure) := snapshotOf s.setup s.root s.draft
  let s' := { s with snapshot := snapshot, failure := failure }
  match failure with
  | some e => ⟨s', .error e, []⟩
  | none => ⟨s', .ok snapshot, (List.range s.observers).map (⟨·, snapshot⟩)⟩

/-- The result of the last settling, again. -/
def settled (s : Session) : Outcome :=
  match s.failure with
  | some e => ⟨s, .error e, []⟩
  | none => ⟨s, .ok s.snapshot, []⟩

/-- A draft read to the end. -/
def process (s : Session) (force : Bool) (d : Draft) : Draft :=
  d.process s.setup.grammar (s.setup.tokenizer s.setup.grammar) force

/-- Replaces the text being typed and reads it. The text already held changes nothing. -/
def setText (s : Session) (t : Text) : Outcome :=
  if t = s.draft.text then s.settled
  else { s with draft := s.process false { s.draft with text := t } }.settle

/-- Commits the last token as well. -/
def commit (s : Session) : Outcome := { s with draft := s.process true s.draft }.settle

/-- Takes back the last committed token: its literal without the last character becomes the text.
With nothing committed the text is cleared. -/
def pop (s : Session) : Outcome :=
  match s.draft.tokens.getLast? with
  | some token =>
    { s with draft := s.process false ⟨s.draft.tokens.dropLast, token.literal.dropLast⟩ }.settle
  | none => { s with draft := {} }.settle

/-- Forgets everything typed. -/
def clear (s : Session) : Outcome := { s with draft := {} }.settle

/-- Changes the record type from which attribute paths start. -/
def setRoot (s : Session) (root : Option Text) : Outcome := { s with root := root }.settle

/-- Adds an observer. -/
def subscribe (s : Session) : Session := { s with observers := s.observers + 1 }

/-- The session with another schema, which is consulted from the next settling on. -/
def withSchema (s : Session) (schema : Option Schema) : Session :=
  { s with setup := { s.setup with schema := schema } }

/-- Types one character. -/
def type (s : Session) (c : Char) : Outcome := s.setText (s.draft.text ++ [c])

/-- Deletes one character: the last one of the text, else of the last committed token. -/
def backspace (s : Session) : Outcome :=
  if s.draft.text ≠ [] then s.setText s.draft.text.dropLast
  else if s.draft.tokens ≠ [] then s.pop
  else s.settled

/-- A session with nothing typed and nobody watching. -/
def start (setup : Setup) (root : Option Text := none) : Session :=
  { setup, root, draft := {}, snapshot := bareSnapshot setup {}, failure := none,
    observers := 0 : Session }.settle.session

/-- A new session, if the grammar is closed. -/
def new (setup : Setup) (root : Option Text := none) : Except GrammarError Session :=
  match setup.grammar.checkClosed with
  | .ok () => .ok (start setup root)
  | .error e => .error e

end Session

end Typeahead
