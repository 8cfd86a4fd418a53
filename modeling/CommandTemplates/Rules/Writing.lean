import CommandTemplates.Rules.Basic
import CommandTemplates.Yaml.Written

/-!
# Writing rules

A rule set as a YAML document, with every field written out in the order of declaration.

## Main Definitions

* `Writing.field`, `Writing.list` — a field with a text, a field with items
* `RuleSet.toYaml` — the document of a rule set

## Design Notes

The items of a list are not indented under its name. An item that is a mapping starts on
the line of its dash, and its other fields line up with the first.
-/

namespace CommandTemplates

namespace Writing

/-- A field with a text. The first field of an item stands after its dash. -/
def field (indent : Nat) (first : Bool) (name : String) (value : Text) : Text :=
  (if first then Yaml.spaces (indent - 2) ++ ['-', ' '] else Yaml.spaces indent) ++
    name.toList ++ [':', ' '] ++ Yaml.written (indent + 2) value

/-- A field with items, each of which ends its last line. -/
def list (indent : Nat) (name : String) (items : List Text) : Text :=
  Yaml.spaces indent ++ name.toList ++ [':'] ++
    (if items.isEmpty then " []\n".toList else '\n' :: items.flatten)

/-- An item that is a text. -/
def item (indent : Nat) (value : Text) : Text :=
  Yaml.spaces indent ++ ['-', ' '] ++ Yaml.written (indent + 2) value

/-- The item for a replacement. -/
def replacement (r : Replacement) : Text :=
  field 4 true "from" r.literal ++ field 4 false "to" r.substitute

/-- The item for a placeholder. -/
def placeholder (p : Placeholder) : Text :=
  field 4 true "placeholder" p.name ++ field 4 false "description" p.description ++
    field 4 false "example" p.sample

/-- The item for a group. -/
def group (g : Group) : Text :=
  field 2 true "name" g.name ++ list 2 "files" (g.files.map (item 2)) ++
    field 2 false "guide" g.guidePolicy.word ++
    list 2 "replacements" (g.replacements.map replacement) ++
    list 2 "placeholders" (g.placeholders.map placeholder)

end Writing

/-- The document of a rule set. -/
def RuleSet.toYaml (rules : RuleSet) : Text :=
  Writing.field 0 false "notice" rules.notice ++
    Writing.list 0 "groups" (rules.groups.map Writing.group)

end CommandTemplates
