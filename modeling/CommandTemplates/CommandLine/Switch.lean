import CommandTemplates.Text.Search

/-!
# Commands and their switches

## Main Definitions

* `CommandName` — the commands
* `Switch` — the options and flags
* `Switch.available` — which of them a command knows
-/

namespace CommandTemplates

/-- The commands. -/
inductive CommandName
  | apply
  | check
  | rules
  | version
  | completions
  deriving DecidableEq, Repr

namespace CommandName

/-- The commands, in the order they are listed. -/
def all : List CommandName := [apply, check, rules, version, completions]

/-- The word for a command. -/
def word : CommandName → Text
  | apply => "apply".toList
  | check => "check".toList
  | rules => "rules".toList
  | version => "version".toList
  | completions => "completions".toList

/-- The command that a word names. -/
def ofWord? (word : Text) : Option CommandName := all.find? (·.word == word)

end CommandName

/-- The options, which have a value, and the flags, which have none. -/
inductive Switch
  | workspace
  | dir
  | rules
  | only
  | shell
  | verbose
  | dryRun
  | all
  | json
  | help
  | version
  deriving DecidableEq, Repr

namespace Switch

/-- Whether a value belongs to a switch. -/
def takesValue : Switch → Bool
  | workspace | dir | rules | only | shell => true
  | _ => false

/-- Whether the value of a switch is a path, which is not empty. -/
def isPath : Switch → Bool
  | workspace | dir | rules => true
  | _ => false

/-- Whether a switch may be given more than once. -/
def isRepeatable : Switch → Bool
  | only => true
  | _ => false

/-- The name of a switch after two dashes. -/
def long : Switch → Text
  | workspace => "workspace".toList
  | dir => "dir".toList
  | rules => "rules".toList
  | only => "only".toList
  | shell => "shell".toList
  | verbose => "verbose".toList
  | dryRun => "dry-run".toList
  | all => "all".toList
  | json => "json".toList
  | help => "help".toList
  | version => "version".toList

/-- The letter of a switch after one dash. -/
def short? : Switch → Option Char
  | workspace => some 'w'
  | verbose => some 'v'
  | all => some 'a'
  | help => some 'h'
  | version => some 'V'
  | _ => none

/-- The switches that a command knows, or those that may stand before a command. -/
def available : Option CommandName → List Switch
  | none => [workspace, verbose, help, version]
  | some .apply => [workspace, verbose, help, dir, rules, only, dryRun, json]
  | some .check => [workspace, verbose, help, dir, rules, all, json]
  | some .rules => [workspace, verbose, help, rules]
  | some .version => [workspace, verbose, help]
  | some .completions => [workspace, verbose, help, shell]

end Switch

end CommandTemplates
