import CommandTemplates.Text.Search

/-!
# Rules

A rule set says which command files become templates and what is replaced in them.

## Main Definitions

* `Replacement` — one literal and the text that stands in for it
* `Placeholder` — one row of the customization guide
* `Group` — files that share replacements and a guide
* `RuleSet` — the groups, in the order they are applied, and the notice

## Design Notes

Nothing here excludes an ambiguous rule set; `RuleSet.validate` does that, and every
operation is defined for rule sets that were never validated.
-/

namespace CommandTemplates

/-- One literal substitution. -/
structure Replacement where
  literal : Text
  substitute : Text
  deriving DecidableEq, Repr

/-- One row of the customization guide. -/
structure Placeholder where
  name : Text
  description : Text
  sample : Text
  deriving DecidableEq, Repr

/-- When the files of a group get the customization guide. -/
inductive GuidePolicy
  /-- Every file of the group gets it. -/
  | always
  /-- A file gets it if it contains one of the group's placeholders. -/
  | whenUsed
  deriving DecidableEq, Repr

/-- The word for a policy in a rules file. -/
def GuidePolicy.word : GuidePolicy → Text
  | .always => "always".toList
  | .whenUsed => "when-used".toList

/-- A named set of files sharing replacements and a guide. -/
structure Group where
  name : Text
  files : List Text
  guidePolicy : GuidePolicy := .always
  replacements : List Replacement := []
  placeholders : List Placeholder := []
  deriving DecidableEq, Repr

namespace Group

/-- The literals a group replaces, in order. -/
def literals (group : Group) : List Text := group.replacements.map (·.literal)

/-- Whether a file of the group with this text should have a customization guide. -/
def wantsGuide (group : Group) (text : Text) : Bool :=
  match group.placeholders, group.guidePolicy with
  | [], _ => false
  | _ :: _, .always => true
  | placeholders, .whenUsed => placeholders.any fun p => text.includes p.name

end Group

/-- The notice and the groups, in the order they are applied. -/
structure RuleSet where
  notice : Text
  groups : List Group
  deriving DecidableEq, Repr

namespace RuleSet

/-- The group that owns a file: the first that lists it. -/
def groupFor (rules : RuleSet) (file : Text) : Option Group :=
  rules.groups.find? fun group => group.files.contains file

/-- The list without repetitions; the first occurrence of each text stays. -/
def firstOccurrences : List Text → List Text
  | [] => []
  | text :: rest => text :: (firstOccurrences rest).filter (· != text)

/-- Every distinct literal of all groups. -/
def allLiterals (rules : RuleSet) : List Text :=
  firstOccurrences (rules.groups.flatMap Group.literals)

/-- The groups with one of the given names, or all groups when no name is given.
A name that no group has is an error; the first such name is reported. -/
def select (rules : RuleSet) (only : List Text) : Except Text (List Group) :=
  match only.find? fun name => !rules.groups.any (·.name == name) with
  | some unknown => .error unknown
  | none => .ok (rules.groups.filter fun group => only.isEmpty || only.contains group.name)

end RuleSet

end CommandTemplates
