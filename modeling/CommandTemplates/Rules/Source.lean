import CommandTemplates.Text.Search

/-!
# Where rules come from

## Main Definitions

* `RulesSource` — the places that rules are taken from
* `RulesSource.shown` — a source as it is shown
-/

namespace CommandTemplates

/-- Where rules come from. -/
inductive RulesSource
  /-- A file that was named. -/
  | explicit (path : Text)
  /-- The rules file of the workspace. -/
  | workspace (path : Text)
  | builtin
  deriving DecidableEq, Repr

namespace RulesSource

/-- The name of the rules file of a workspace. -/
def workspaceFile : Text := ".templatize.yaml".toList

/-- A source as it is shown. -/
def shown : RulesSource → Text
  | explicit path => path
  | workspace path => path
  | builtin => "built-in rules".toList

end RulesSource

end CommandTemplates
