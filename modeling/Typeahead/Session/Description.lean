import Typeahead.Session.Basic
import Typeahead.Text.Quoted

/-!
# Describing a session

The inner state of a session on one line, for whoever has to find out what it is doing.
-/

namespace Typeahead

namespace Description

/-- A record with named fields. -/
def record (name : String) (fields : List (String × Text)) (more : Bool) : Text :=
  let shown := fields.map fun f => f.1.toList ++ [':', ' '] ++ f.2
  name.toList ++ " \x7b ".toList ++
    Text.join [',', ' '] (shown ++ if more then ["..".toList] else []) ++ " \x7d".toList

/-- A list between brackets. -/
def list (items : List Text) : Text := ['['] ++ Text.join [',', ' '] items ++ [']']

/-- A value that may be absent. -/
def optional (value : Option Text) : Text :=
  match value with
  | some t => "Some(".toList ++ t ++ [')']
  | none => "None".toList

/-- A truth value. -/
def truth (b : Bool) : Text := if b then "true".toList else "false".toList

/-- A token. -/
def token (t : Token) : Text :=
  record "Token" [("token_type", t.kind.title.toList), ("token_value", Text.quoted t.value),
    ("quote", optional (t.quote.map Text.quotedChar))] false

/-- How guesses are made. -/
def options (o : Options) : Text :=
  record "GuesserOptions" [("qualified_attributes", truth o.qualified),
    ("excluded", list (o.excluded.map (·.title.toList)))] false

/-- A session before it starts. -/
def plan (setup : Setup) (root : Option Text) : Text :=
  record "QueryGuesserBuilder" [("root_type", optional (root.map Text.quoted)),
    ("options", options setup.options)] true

/-- A session. -/
def session (s : Session) : Text :=
  record "QueryGuesser" [("current_text", Text.quoted s.draft.text),
    ("token_stack", list (s.draft.tokens.map token)),
    ("root_type", optional (s.root.map Text.quoted)),
    ("options", options s.setup.options),
    ("observers", (toString s.observers).toList)] true

end Description

end Typeahead
