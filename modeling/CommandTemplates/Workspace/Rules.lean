import CommandTemplates.File.Path
import CommandTemplates.Host.Basic
import CommandTemplates.Rules.Builtin
import CommandTemplates.Rules.Reading

/-!
# The rules of a workspace

Rules come from a file that was named, from the rules file of the workspace, or are built in.

## Main Definitions

* `RulesSource.resolve` — where the rules of a workspace come from
* `RuleSet.loadFile` — the rules in a file
* `RuleSet.load` — the rules of a workspace and their source
-/

namespace CommandTemplates

variable {m : Type → Type} [Monad m] [Host m]

/-- Where the rules of a workspace come from. A file that is named need not be there. -/
def RulesSource.resolve (root : Text) : Option Text → m RulesSource
  | some path => pure (.explicit (Path.join root path))
  | none => do
    let path := Path.join root workspaceFile
    if ← Host.isFile path then pure (.workspace path) else pure .builtin

/-- What is said of a text that is not well-formed. -/
def RulesTextFault.malformedReason : Text := "not a single well-formed YAML document".toList

/-- The failure of a text that gives no rules. -/
def RulesTextFault.failure (path : Text) : RulesTextFault → Failure
  | malformed => .rulesParseFailed path malformedReason
  | mismatch m => .rulesParseFailed path m.reason
  | invalid fault => .rulesInvalid fault.message

namespace RuleSet

/-- The rules in a file. -/
def loadFile (path : Text) : ExceptT Failure m RuleSet := do
  if ← Host.isThere path then
    let source ← Host.readText path
    liftExcept ((ofYaml source).mapError (·.failure path))
  else throw (.rulesNotFound path)
where
  /-- A result that needs no host. -/
  liftExcept (r : Except Failure RuleSet) : ExceptT Failure m RuleSet := ExceptT.mk (pure r)

/-- The rules of a workspace and their source. -/
def load (root : Text) (named : Option Text) : ExceptT Failure m (RuleSet × RulesSource) := do
  let source ← RulesSource.resolve root named
  Host.note (.loadingRules source)
  let rules ← match source with
    | .explicit path => loadFile path
    | .workspace path => loadFile path
    | .builtin => pure builtin
  return (rules, source)

end RuleSet

end CommandTemplates
