import Typeahead.Files
import Typeahead.Settings.Toml

/-!
# Settings files

Settings are kept in a TOML file. A file that the user names has to be there; the file at the usual
place need not.
-/

namespace Typeahead

namespace Settings

/-- The settings in what was found at a path; `required` tells whether the user asked for it. -/
def load (path : Text) (required : Bool) : Found → Except Error Settings
  | .missing => if required then .error (.settings (.fileNotFound path)) else .ok {}
  | .unreadable => .error (.file "not a text file".toList)
  | .contents t => ofToml t

/-- The folder with the settings written to a file. -/
def save (s : Settings) (folder : Folder) (path : Text) : Except Error Folder :=
  match folder.write? path s.toToml with
  | some folder' => .ok folder'
  | none => .error (.file "not a place for a file".toList)

/-- The usual place of the settings file below the home directory. -/
def usualPath (home : Text) : Text := home ++ "/.scql/config.toml".toList

end Settings

end Typeahead
