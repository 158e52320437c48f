import Typeahead.Error
import Typeahead.Text.Lower

/-!
# Shell completion

Scripts that complete the value of `--root-type` with the record types of the settings.
-/

namespace Typeahead

/-- A shell with a completion script. -/
inductive Shell where
  | bash | zsh | fish
  deriving DecidableEq

namespace Shell

/-- The shell of a name; case does not matter. -/
def parse (name : Text) : Except Error Shell :=
  if Text.lower name = "bash".toList then .ok bash
  else if Text.lower name = "zsh".toList then .ok zsh
  else if Text.lower name = "fish".toList then .ok fish
  else .error (.settings (.invalidValue "shell".toList
    (name ++ " (supported shells: bash, zsh, fish)".toList)))

/-- The lines of the script. -/
def scriptLines : Shell → List String
  | bash => [
    "# Custom completion for record type names",
    "_scql_list_types() \x7b",
    "    scql config --list-types 2>/dev/null",
    "\x7d",
    "",
    "_scql_enhanced() \x7b",
    "    local cur prev words cword",
    "    _init_completion || return",
    "",
    "    if [[ \"$prev\" == \"--root-type\" ]]; then",
    "        COMPREPLY=($(compgen -W \"$(_scql_list_types)\" -- \"$cur\"))",
    "        return 0",
    "    fi",
    "",
    "    _scql \"$@\"",
    "\x7d",
    "",
    "complete -F _scql_enhanced scql"]
  | zsh => [
    "# Custom completion for record type names",
    "_scql_list_types() \x7b",
    "    scql config --list-types 2>/dev/null",
    "\x7d",
    "",
    "_scql_enhanced() \x7b",
    "    if [[ $\x7bwords[CURRENT-1]\x7d == \"--root-type\" ]]; then",
    "        local -a types",
    "        types=($(_scql_list_types))",
    "        _describe 'record types' types",
    "        return 0",
    "    fi",
    "",
    "    _scql \"$@\"",
    "\x7d",
    "",
    "compdef _scql_enhanced scql"]
  | fish => [
    "# Custom completion for record type names",
    "function __scql_list_types",
    "    scql config --list-types 2>/dev/null",
    "end",
    "",
    "complete -c scql -l root-type -f -a \"(__scql_list_types)\" " ++
      "-d \"Record type from config file\""]

/-- The script. -/
def script (s : Shell) : Text := s.scriptLines.flatMap fun l => l.toList ++ ['\n']

end Shell

end Typeahead
