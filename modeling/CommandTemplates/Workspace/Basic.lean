import CommandTemplates.Workspace.Rules

/-!
# Workspaces

A workspace is a directory of command files with the rules for them.

## Main Definitions

* `Workspace` — an open workspace
* `Workspace.directoryOf` — the directory of command files under a root
* `Workspace.openAt` — opens a workspace
* `Workspace.pathOf` — the path of a command file
-/

namespace CommandTemplates

/-- An open workspace. -/
structure Workspace where
  commandsDir : Text
  rules : RuleSet
  source : RulesSource
  deriving DecidableEq, Repr

namespace Workspace

variable {m : Type → Type} [Monad m] [Host m]

/-- The directory of command files under a root, unless another one is named. -/
def defaultDir : Text := ".claude/commands".toList

/-- The directory of command files, at its place under a root or where it is said to be. -/
def directoryOf (root : Text) (dir : Option Text) : Text :=
  Path.join root (dir.getD defaultDir)

/-- The root of a workspace: the one that is named, or the current directory. -/
def rootOf : Option Text → m Text
  | some root => pure root
  | none => Host.currentDir

/-- Opens a workspace. Its directory must be there, and its rules must be readable. -/
def openAt (root dir rules : Option Text) : ExceptT Failure m Workspace := do
  let root ← rootOf root
  let commandsDir := directoryOf root dir
  if ← Host.isDir commandsDir then
    let (rules, source) ← RuleSet.load root rules
    Host.note (.workspaceResolved root commandsDir source)
    return { commandsDir := commandsDir, rules := rules, source := source }
  else throw (.commandsDirNotFound commandsDir)

/-- The path of a command file. -/
def pathOf (w : Workspace) (file : Text) : Text := Path.join w.commandsDir file

end Workspace

end CommandTemplates
