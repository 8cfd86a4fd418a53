import CommandTemplates.CommandLine.Arguments
import CommandTemplates.CommandLine.Shell
import CommandTemplates.Rules.Writing
import CommandTemplates.Workspace.Check

/-!
# Running a command line

## Main Definitions

* `Command.run` — runs a command, which prints and may fail
* `Outcome` — how a command line ends
* `Environment` — what the environment of the program sets
* `runCommandLine` — reads a command line and runs it
-/

namespace CommandTemplates

variable {m : Type → Type} [Monad m] [Host m]

/-- The name and the number of the program. -/
def versionLine : Text := "templatize 0.1.0\n".toList

namespace Command

/-- What the version command prints. -/
def versionText : Text :=
  versionLine ++ "\nBuild info:\n  Rust version: 1.85\n  Profile: debug\n".toList

/-- Runs a command in a workspace, which prints and may fail. -/
def run (color verbose : Bool) (workspace : Option Text) : Command → ExceptT Failure m Unit
  | .apply dir named only dryRun json => do
    let w ← Workspace.openAt workspace dir named
    if !json then
      Host.print (ApplyReport.header w.commandsDir w.source.shown dryRun ++ ['\n', '\n'])
    let report ← w.apply only dryRun
    Host.print (if json then report.json.pretty ++ ['\n'] else report.printed color verbose)
  | .check dir named all json => do
    let w ← Workspace.openAt workspace dir named
    let report ← w.check all
    Host.print (if json then report.json.pretty ++ ['\n'] else report.printed color)
    if !report.isClean then throw (.checkFailed report.problemCount)
  | .rules named => do
    let root ← Workspace.rootOf workspace
    let loaded ← RuleSet.load root named
    Host.print ("# Source: ".toList ++ loaded.2.shown ++ ['\n'])
    Host.print loaded.1.toYaml
  | .version => Host.print versionText
  | .completions name =>
    match Shell.ofName? name with
    | some shell => Host.print shell.script
    | none => throw (.unknownShell name)

end Command

/-- How a command line ends. -/
inductive Outcome
  | done
  | failed (failure : Failure)
  | refused (fault : UsageFault)
  deriving DecidableEq, Repr

namespace Outcome

/-- The exit code. To ask for help or for the version is no error. -/
def exitCode : Outcome → Nat
  | done => 0
  | failed _ => 1
  | refused .helpAsked => 0
  | refused .versionAsked => 0
  | refused _ => 2

/-- What is said of a failure after all else. -/
def errorLine? : Outcome → Option Text
  | failed failure => some ("Error: ".toList ++ failure.message)
  | _ => none

end Outcome

/-- How the program is called, for those who ask and for those who err. -/
def usageText : Text :=
  "Usage: templatize [OPTIONS] <COMMAND>\n\nCommands: ".toList ++ Shell.words ++ ['\n']

/-- Runs what a command line asks for. -/
def Invocation.run (color : Bool) (i : Invocation) : m Outcome := do
  match ← (i.command.run color i.verbose i.workspace).run with
  | .ok () => return .done
  | .error failure => return .failed failure

/-- What the environment of the program sets. -/
structure Environment where
  workspace : Option Text := none
  /-- The levels that the log shows. -/
  logLevel : Option Text := none
  color : Bool := false
  deriving DecidableEq, Repr

/-- Reads the variables that the program knows. Colours are forced by any value but `0`, and
without force they are shown on a terminal only. -/
def Environment.read (lookup : String → Option Text) (terminal : Bool) : Environment where
  workspace := lookup "TEMPLATIZE_WORKSPACE"
  logLevel := lookup "RUST_LOG"
  color :=
    (lookup "CLICOLOR_FORCE").any (· ≠ ['0']) ||
      ((lookup "NO_COLOR").isNone && (lookup "CLICOLOR").all (· ≠ ['0']) && terminal)

/-- Reads a command line and runs it. -/
def runCommandLine (e : Environment) (words : List Text) : m Outcome := do
  match Invocation.parse e.workspace words with
  | .ok i => i.run e.color
  | .error fault =>
    match fault with
    | .helpAsked => Host.print usageText
    | .versionAsked => Host.print versionLine
    | _ => pure ()
    return .refused fault

/-- The last level that the log shows: the one that is asked for, else all up to debug for a
verbose command line and up to warnings for others. -/
def logLimit (e : Environment) (words : List Text) : Option LogLevel :=
  match e.logLevel, Invocation.parse e.workspace words with
  | some word, _ => LogLevel.ofWord? word
  | none, .ok i => some (if i.verbose then .debug else .warn)
  | none, .error _ => some .warn

end CommandTemplates
