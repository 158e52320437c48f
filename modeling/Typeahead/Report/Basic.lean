import Typeahead.Query.Tree
import Typeahead.Report.Json
import Typeahead.Session.Snapshot
import Typeahead.Text.Quoted

/-!
# Reports

How results are shown: as lines of plain text with labels, or as JSON.
-/

namespace Typeahead

/-- The form of a report. -/
inductive ReportFormat where
  | text | json
  deriving DecidableEq

/-- The verdict on a query: its tree, or what is wrong with it. -/
abbrev Verdict := Except QueryError (Option Tree)

namespace Report

/-- A string of the library as a JSON string. -/
def str (s : String) : Json := .string s.toList

/-- A field of an object. -/
def field (name : String) (value : Json) : Text × Json := (name.toList, value)

/-- A token as JSON. -/
def tokenJson (t : Token) : Json :=
  .object ([field "token_type" (str t.kind.label), field "token_value" (.string t.value)] ++
    t.quote.toList.map fun q => field "quote" (.string [q]))

/-- A tree as JSON. -/
def treeJson : Tree → Json
  | .leaf token => .object [field "kind" (str "leaf"), field "token" (tokenJson token)]
  | .group inner => .object [field "kind" (str "group"), field "inner" (treeJson inner)]
  | .prefixOp operator operand =>
    .object [field "kind" (str "prefix"), field "operator" (tokenJson operator),
      field "operand" (treeJson operand)]
  | .infixOp operator left right =>
    .object [field "kind" (str "infix"), field "operator" (tokenJson operator),
      field "left" (treeJson left), field "right" (treeJson right)]
  | .postfixOp operator operand =>
    .object [field "kind" (str "postfix"), field "operator" (tokenJson operator),
      field "operand" (treeJson operand)]

/-- A snapshot as JSON. -/
def snapshotJson (s : Snapshot) : Json :=
  .object [
    field "current_text" (.string s.text),
    field "tokens" (.array (s.tokens.map tokenJson)),
    field "position" ((s.position.map fun p => str p.label).getD .null),
    field "predictions" (.array (s.predictions.map fun k => str k.label)),
    field "guesses" (.array (s.guesses.map .string)),
    field "is_valid_query" (.boolean s.isValid),
    field "closing_paren_count" (.number s.openCount),
    field "full_text" (.string s.fullText)]

/-- A verdict as JSON; what it does not have is left out. -/
def verdictJson : Verdict → Json
  | .ok tree =>
    .object (field "valid" (.boolean true) :: tree.toList.map fun t => field "tree" (treeJson t))
  | .error e => .object [field "valid" (.boolean false), field "error" (str e.message)]

/-- The width of the column of labels. -/
def labelWidth : Nat := 12

/-- A label in its column, and a value. -/
def line (label value : Text) : Text :=
  label ++ List.replicate (labelWidth - label.length) ' ' ++ [' '] ++ value

/-- A token within a line: its kind, with its literal if that says more. -/
def tokenInline (t : Token) : Text :=
  if t.kind.name = t.value then t.kind.name else t.kind.name ++ ['('] ++ t.literal ++ [')']

/-- Texts with a comma between neighbours. -/
def commaList (ts : List Text) : Text := Text.join [',', ' '] ts

/-- A snapshot in lines. -/
def snapshotText (s : Snapshot) : Text :=
  Text.join ['\n'] [
    line "Tokens:".toList (Text.join [' '] (s.tokens.map tokenInline)),
    line "Current:".toList (Text.quoted s.text),
    line "Position:".toList ((s.position.map (·.label.toList)).getD ['-']),
    line "Predicted:".toList (commaList (s.predictions.map TokenKind.name)),
    line "Guesses:".toList (commaList s.guesses),
    line "Valid:".toList (if s.isValid then "yes".toList else "no".toList),
    line "Full text:".toList s.fullText]

/-- A report on a snapshot. -/
def snapshot (format : ReportFormat) (s : Snapshot) : Text :=
  match format with
  | .json => (snapshotJson s).print
  | .text => snapshotText s

/-- A report on a list of tokens, one to a line. -/
def tokens (format : ReportFormat) (ts : List Token) : Text :=
  match format with
  | .json => (Json.array (ts.map tokenJson)).print
  | .text =>
    if ts.isEmpty then "(no tokens)".toList
    else Text.join ['\n'] (ts.map fun t => line t.kind.name t.literal)

/-- A report on the verdict on a query. -/
def verdict (format : ReportFormat) (v : Verdict) : Text :=
  match format, v with
  | .json, v => (verdictJson v).print
  | .text, .ok _ => "valid".toList
  | .text, .error e => "invalid: ".toList ++ e.message.toList

end Report

end Typeahead
