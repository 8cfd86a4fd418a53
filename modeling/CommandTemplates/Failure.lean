import CommandTemplates.Text.Search

/-!
# Failures

Everything that can make a command fail, with the text, the code and the hint shown for it.

## Main Definitions

* `Failure` — the causes
* `Failure.message` — the text shown
* `Failure.code` — a stable name of the cause
* `Failure.help?` — what to try next, where there is something to try
-/

namespace CommandTemplates

/-- Why a command failed. -/
inductive Failure
  | commandsDirNotFound (path : Text)
  | rulesNotFound (path : Text)
  | rulesParseFailed (path reason : Text)
  | rulesInvalid (message : Text)
  | unknownGroup (name : Text)
  | checkFailed (count : Nat)
  | unknownShell (shell : Text)
  | readFailed (path reason : Text)
  | writeFailed (path reason : Text)
  | io (message : Text)
  deriving DecidableEq, Repr

namespace Failure

/-- The text shown for a failure. -/
def message : Failure → Text
  | commandsDirNotFound path => "Commands directory not found: ".toList ++ path
  | rulesNotFound path => "Rules file not found: ".toList ++ path
  | rulesParseFailed path reason =>
    "Failed to parse rules file: ".toList ++ path ++ ": ".toList ++ reason
  | rulesInvalid message => "Invalid rules: ".toList ++ message
  | unknownGroup name => "Unknown rule group: ".toList ++ name
  | checkFailed count =>
    Text.ofNat count ++ " file(s) still contain infrastructure-specific values".toList
  | unknownShell shell => "Unknown shell: ".toList ++ shell
  | readFailed path reason => "Failed to read file: ".toList ++ path ++ ": ".toList ++ reason
  | writeFailed path reason => "Failed to write file: ".toList ++ path ++ ": ".toList ++ reason
  | io message => "IO error: ".toList ++ message

/-- A stable name of the cause. -/
def code : Failure → Text
  | commandsDirNotFound _ => "templatize::workspace::commands_dir_not_found".toList
  | rulesNotFound _ => "templatize::rules::not_found".toList
  | rulesParseFailed _ _ => "templatize::rules::parse_failed".toList
  | rulesInvalid _ => "templatize::rules::invalid".toList
  | unknownGroup _ => "templatize::rules::unknown_group".toList
  | checkFailed _ => "templatize::check::failed".toList
  | unknownShell _ => "templatize::cli::unknown_shell".toList
  | readFailed _ _ => "templatize::fs::read_failed".toList
  | writeFailed _ _ => "templatize::fs::write_failed".toList
  | io _ => "templatize::fs::io_error".toList

/-- What to try next, where there is something to try. -/
def help? : Failure → Option Text
  | commandsDirNotFound _ =>
    some "Pass --dir to point at the directory holding your command files".toList
  | unknownGroup _ => some "Run 'templatize rules' to list the available groups".toList
  | checkFailed _ => some "Run 'templatize apply' to replace them with placeholders".toList
  | unknownShell _ => some "Supported shells: bash, elvish, fish, powershell, zsh".toList
  | _ => none

/-- The failure of a report that could not be written as JSON. -/
def ofReportFault (message : Text) : Failure :=
  io ("Failed to serialize report: ".toList ++ message)

end Failure

end CommandTemplates
