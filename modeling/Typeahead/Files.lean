import Typeahead.OrderedMap
import Typeahead.Text.Basic

/-!
# A folder of text files

Paths are relative to the folder, with slashes between names; `.` stays and `..` goes back. A name
is a directory if some file lies below it.
-/

namespace Typeahead

/-- What is found at a path. -/
inductive Found where
  | missing
  /-- Something that is no readable text. -/
  | unreadable
  | contents (t : Text)

/-- A folder: where each file lies, and its text. -/
structure Folder where
  files : List (List Text × Text) := []

namespace Folder

/-- The names of a path, those left out that stay in place. -/
def names (path : Text) : List Text :=
  (Text.splitOn '/' path).filter fun n => n ≠ [] && n ≠ ['.']

/-- The place reached from `place` by a name. -/
def step (place : List Text) (name : Text) : List Text :=
  if name = ['.', '.'] ∧ place.getLast?.any (· ≠ ['.', '.']) then place.dropLast
  else place ++ [name]

/-- Whether a place is a directory. The folder lies below every place that only goes back. -/
def isDirectory (f : Folder) (place : List Text) : Bool :=
  place.all (· = ['.', '.']) ||
    f.files.any fun e => place.isPrefixOf e.1 && place.length < e.1.length

/-- The place that names lead to, if every one before the last is a directory. -/
def walk (f : Folder) (place : List Text) : List Text → Option (List Text)
  | [] => some place
  | name :: rest => if f.isDirectory place then f.walk (step place name) rest else none

/-- Whether a path can only lead to a directory. -/
def endsInDirectory (path : Text) : Bool :=
  (Text.splitOn '/' path).getLast?.any fun n => n = [] || n = ['.']

/-- What lies at a path. Nothing is found at an empty path or outside by an absolute one. -/
def find (f : Folder) (path : Text) : Found :=
  if path = [] then .missing
  else if path.head? = some '/' then if names path = [] then .unreadable else .missing
  else
    match f.walk [] (names path) with
    | none => .missing
    | some place =>
      if f.isDirectory place then .unreadable
      else if endsInDirectory path then .missing
      else
        match f.files.lookup place with
        | some t => .contents t
        | none => .missing

/-- The folder with a file written at a path, directories made on the way. A path that names no file
is refused, and so is one through a file. -/
def write? (f : Folder) (path t : Text) : Option Folder :=
  let place := (names path).foldl step []
  let isFile (place : List Text) : Bool := (f.files.lookup place).isSome
  if endsInDirectory path || (names path).getLast? = some ['.', '.'] || f.isDirectory place ||
      (List.range place.length).any (fun n => isFile (place.take n)) then none
  else some ⟨putEntry place t f.files⟩

end Folder

end Typeahead
