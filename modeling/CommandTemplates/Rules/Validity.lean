import CommandTemplates.Rules.Basic
import CommandTemplates.Text.Blank

/-!
# Valid rule sets

A rule set can be applied unambiguously when its groups have distinct names that show
something, every group lists a file, no file is listed twice and no literal is empty.

## Main Definitions

* `RuleFault` — what makes a rule set ambiguous
* `RuleSet.validate` — reports the first fault, in declared order

## Design Notes

Groups are examined one after the other against what was seen before them: the names
of the earlier groups and, for every file, the group that listed it.
-/

namespace CommandTemplates

/-- What makes a rule set ambiguous. -/
inductive RuleFault
  | noGroups
  | blankName
  | repeatedName (name : Text)
  | noFiles (group : Text)
  | emptyLiteral (group : Text)
  | sharedFile (file owner group : Text)
  deriving DecidableEq, Repr

/-- The text shown for a fault. -/
def RuleFault.message : RuleFault → Text
  | noGroups => "at least one group is required".toList
  | blankName => "group name must not be empty".toList
  | repeatedName name => "group '".toList ++ name ++ "' is defined more than once".toList
  | noFiles group => "group '".toList ++ group ++ "' lists no files".toList
  | emptyLiteral group =>
    "group '".toList ++ group ++ "' has a replacement with an empty 'from'".toList
  | sharedFile file owner group =>
    "file '".toList ++ file ++ "' is listed by both '".toList ++ owner ++ "' and '".toList ++
      group ++ "'".toList

/-- The files seen so far, each with the group that lists it. -/
abbrev Owners := List (Text × Text)

namespace RuleSet

/-- Adds the files of a group to the files seen so far. -/
def claimFiles (group : Text) : Owners → List Text → Except RuleFault Owners
  | owners, [] => .ok owners
  | owners, file :: files =>
    match owners.lookup file with
    | some owner => .error (.sharedFile file owner group)
    | none => claimFiles group ((file, group) :: owners) files

/-- Examines groups in order, given the names and files of the groups before them. -/
def validateGroups (names : List Text) (owners : Owners) : List Group → Except RuleFault Unit
  | [] => .ok ()
  | group :: groups =>
    if group.name.isBlank then .error .blankName
    else if names.contains group.name then .error (.repeatedName group.name)
    else if group.files.isEmpty then .error (.noFiles group.name)
    else if group.replacements.any (·.literal.isEmpty) then .error (.emptyLiteral group.name)
    else
      match claimFiles group.name owners group.files with
      | .error fault => .error fault
      | .ok owners => validateGroups (group.name :: names) owners groups

/-- Rejects a rule set that cannot be applied unambiguously. -/
def validate (rules : RuleSet) : Except RuleFault Unit :=
  if rules.groups.isEmpty then .error .noGroups else validateGroups [] [] rules.groups

end RuleSet

end CommandTemplates
