import Typeahead.Grammar.Standard

/-!
# Reading tokens

`Token.scan` reads every token it can see in a text and never fails: characters that start nothing
are skipped, and a string left open at the end is still a token. The character under the scanner
may be the last one, and then a token is finished at once instead of being kept pending.
`Token.scanPlain` reads the same tokens without looking ahead for the end.
-/

namespace Typeahead

/-- A token being read. -/
structure Pending where
  kind : TokenKind
  lexeme : Lexeme
  value : Text
  /-- The character that ends a delimited token. -/
  closing : Option Char

namespace Pending

/-- Whether `c` ends the token. -/
def endsAt (p : Pending) (c : Char) : Bool :=
  match p.closing with
  | some closing => c == closing
  | none => p.lexeme.stops c

/-- The token with `c` added to its text. -/
def push (p : Pending) (c : Char) : Pending := { p with value := p.value ++ [c] }

/-- The finished token. A text that fails its format makes it unknown, and a text that is a keyword
makes it that keyword, unless it stood between delimiters. -/
def token (g : Grammar) (p : Pending) : Token where
  kind :=
    let plain := if p.lexeme.format.all (· p.value) then p.kind else .unknown
    if p.closing.isNone then (g.keyword? p.value).getD plain else plain
  value := p.value
  quote := if p.lexeme.delimiter = some .matching then p.closing else none

/-- The token that starts on `c`, and whether it is complete with that character. -/
def start? (g : Grammar) (c : Char) : Option (Pending × Bool) :=
  (g.starting? c).map fun (kind, lexeme, single) =>
    match lexeme.delimiter with
    | some .matching => (⟨kind, lexeme, [], some c⟩, single)
    | some (.closing close) => (⟨kind, lexeme, [], some close⟩, single)
    | none => (⟨kind, lexeme, [c], none⟩, single)

end Pending

namespace Token

/-- Reading one character with nothing pending: the tokens finished, and the one pending. -/
def scanFresh (g : Grammar) (c : Char) (last : Bool) : List Token × Option Pending :=
  match Pending.start? g c with
  | none => ([], none)
  | some (p, single) => if single || last then ([p.token g], none) else ([], some p)

/-- Reading one character. A closing delimiter belongs to its token; any other character that ends a
token is read afresh. -/
def scanChar (g : Grammar) (pending : Option Pending) (c : Char) (last : Bool) :
    List Token × Option Pending :=
  match pending with
  | none => scanFresh g c last
  | some p =>
    if p.endsAt c then
      if p.closing.isSome then ([p.token g], none)
      else
        let (tokens, next) := scanFresh g c last
        (p.token g :: tokens, next)
    else if last then ([(p.push c).token g], none)
    else ([], some (p.push c))

/-- The tokens of a text, after what is pending. -/
def scanFrom (g : Grammar) (pending : Option Pending) : Text → List Token
  | [] => pending.toList.map (·.token g)
  | c :: rest =>
    let (tokens, next) := scanChar g pending c rest.isEmpty
    tokens ++ scanFrom g next rest

/-- The tokens of a text. -/
def scan (g : Grammar) (t : Text) : List Token := scanFrom g none t

/-- The tokens of a text after what is pending, finishing the last one only when the text is used
up. -/
def scanPlainFrom (g : Grammar) (pending : Option Pending) : Text → List Token
  | [] => pending.toList.map (·.token g)
  | c :: rest =>
    let (tokens, next) := scanChar g pending c false
    tokens ++ scanPlainFrom g next rest

/-- The tokens of a text, read without looking ahead for its end. -/
def scanPlain (g : Grammar) (t : Text) : List Token := scanPlainFrom g none t

end Token

end Typeahead
