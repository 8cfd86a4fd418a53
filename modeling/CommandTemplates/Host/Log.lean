import CommandTemplates.Report.Apply
import CommandTemplates.Rules.Source
import CommandTemplates.Text.Quoted

/-!
# The log

What happens on the way is noted as events, each of which has a level.

## Main Definitions

* `LogLevel` — how much an event matters
* `LogEvent` — the events
* `LogEvent.line` — the line of an event
* `LogEvent.isShown` — whether the log shows an event
-/

namespace CommandTemplates

/-- How much an event matters. -/
inductive LogLevel
  | error
  | warn
  | info
  | debug
  | trace
  deriving DecidableEq, Repr

namespace LogLevel

/-- The place of a level in their order; a level shows itself and those before it. -/
def rank : LogLevel → Nat
  | error => 1
  | warn => 2
  | info => 3
  | debug => 4
  | trace => 5

/-- A level in the log, aligned to the right. -/
def label : LogLevel → Text
  | error => "ERROR".toList
  | warn => " WARN".toList
  | info => " INFO".toList
  | debug => "DEBUG".toList
  | trace => "TRACE".toList

/-- The last level that a word shows, in any case; `off` and unknown words show none, the
empty word errors. -/
def ofWord? (word : Text) : Option LogLevel :=
  match String.ofList (word.map Char.toLower) with
  | "" => some error
  | "error" => some error
  | "warn" => some warn
  | "info" => some info
  | "debug" => some debug
  | "trace" => some trace
  | _ => none

end LogLevel

/-- What is noted on the way. -/
inductive LogEvent
  | loadingRules (source : RulesSource)
  | workspaceResolved (root commandsDir : Text) (source : RulesSource)
  | skippedMissing (file group : Text)
  | processed (file group : Text) (status : FileStatus) (replaced : Nat)
  | fileWritten (path : Text)
  | committing (written : Nat)
  | rollingBack (files : Nat)
  | restoreFailed (path reason : Text)
  | cannotSearch (path reason : Text)
  deriving DecidableEq, Repr

namespace LogEvent

/-- The level of an event. -/
def level : LogEvent → LogLevel
  | loadingRules _ => .debug
  | workspaceResolved _ _ _ => .debug
  | skippedMissing _ _ => .info
  | processed _ _ _ _ => .debug
  | fileWritten _ => .debug
  | committing _ => .debug
  | rollingBack _ => .warn
  | restoreFailed _ _ => .warn
  | cannotSearch _ _ => .warn

/-- What an event says. -/
def message : LogEvent → Text
  | loadingRules _ => "loading rules".toList
  | workspaceResolved _ _ _ => "workspace resolved".toList
  | skippedMissing _ _ => "skipping missing file".toList
  | processed _ _ _ _ => "processed file".toList
  | fileWritten _ => "file rewritten".toList
  | committing _ => "committing rewrites".toList
  | rollingBack _ => "rolling back rewritten files".toList
  | restoreFailed _ _ => "failed to restore file".toList
  | cannotSearch _ _ => "cannot read while scanning commands".toList

/-- The fields of an event. Only the name of a listed file is quoted. -/
def fields : LogEvent → List (String × Text)
  | loadingRules source => [("source", source.shown)]
  | workspaceResolved root commandsDir source =>
    [("root", root), ("commands_dir", commandsDir), ("rules", source.shown)]
  | skippedMissing file group => [("file", file.quoted), ("group", group)]
  | processed file group status replaced =>
    [("file", file.quoted), ("group", group), ("status", status.logName),
      ("replaced", Text.ofNat replaced)]
  | fileWritten path => [("path", path)]
  | committing written => [("written", Text.ofNat written)]
  | rollingBack files => [("files", Text.ofNat files)]
  | restoreFailed path reason => [("path", path), ("error", reason)]
  | cannotSearch path reason => [("path", path), ("error", reason)]

/-- The line of an event. -/
def line (e : LogEvent) : Text :=
  e.level.label ++ [' '] ++ e.message ++
    e.fields.flatMap fun f => [' '] ++ f.1.toList ++ ['='] ++ f.2

/-- Whether a log that shows levels up to `last` shows an event. -/
def isShown (last : Option LogLevel) (e : LogEvent) : Bool :=
  last.any fun l => decide (e.level.rank ≤ l.rank)

end LogEvent

end CommandTemplates
