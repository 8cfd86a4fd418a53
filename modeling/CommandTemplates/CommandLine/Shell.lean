import CommandTemplates.CommandLine.Switch

/-!
# Completion scripts

## Main Definitions

* `Shell` — the shells that completions can be made for
* `Shell.ofName?` — the shell of a name, in any case
* `Shell.script` — a script that completes the names of commands
-/

namespace CommandTemplates

/-- The shells that completions can be made for. -/
inductive Shell
  | bash
  | elvish
  | fish
  | powerShell
  | zsh
  deriving DecidableEq, Repr

namespace Shell

/-- The shell of a name, in any case. -/
def ofName? (name : Text) : Option Shell :=
  match String.ofList (name.map Char.toLower) with
  | "bash" => some bash
  | "elvish" => some elvish
  | "fish" => some fish
  | "powershell" => some powerShell
  | "pwsh" => some powerShell
  | "zsh" => some zsh
  | _ => none

/-- The words that are completed, with spaces between them. -/
def words : Text := List.intercalate [' '] (CommandName.all.map (·.word))

/-- A script that completes the names of commands. -/
def script : Shell → Text
  | bash => "complete -W \"".toList ++ words ++ "\" templatize\n".toList
  | elvish =>
    "set edit:completion:arg-completer[templatize] = \x7b|@words| put ".toList ++ words ++
      " \x7d\n".toList
  | fish => "complete -c templatize -f -a \"".toList ++ words ++ "\"\n".toList
  | powerShell =>
    "Register-ArgumentCompleter -Native -CommandName templatize -ScriptBlock \x7b -split '".toList ++
      words ++ "' \x7d\n".toList
  | zsh => "compdef 'compadd ".toList ++ words ++ "' templatize\n".toList

end Shell

end CommandTemplates
