import CommandTemplates.Rules.Mismatch
import CommandTemplates.Rules.Validity
import CommandTemplates.Document.Notice

/-!
# Reading rules

A rules file is a YAML document with the shape of a rule set.

## Main Definitions

* `Reading.text`, `Reading.sequence`, `Reading.record` — the shapes of nodes
* `Reading.ruleSet` — the shape of a rule set
* `RuleSet.read` — the rule set of a text
* `RuleSet.ofYaml` — the same, with ambiguous rules rejected

## Design Notes

Every scalar in a field of text is taken as it stands, whatever it would mean elsewhere.
A node left out is an empty list or a mapping without fields. Fields may come in any
order, unknown ones are passed over. The first mismatch in document order is reported; a
missing field is noticed at the end of its mapping, in the order of declaration.
-/

namespace CommandTemplates

open Yaml (Node Mark Meaning)

namespace Reading

/-- Reading a node may meet a mismatch. -/
abbrev Result := Except Mismatch

/-- Gives a mismatch the place of a node, unless it has one. -/
def placed (path : List PathStep) (mark : Mark) : Result α → Result α
  | .ok a => .ok a
  | .error m => .error (m.located path mark)

/-- The node that a reference stands for. -/
def follow (d : Yaml.Document) : Node → Node
  | .reference m number => (d.target? number).getD (Node.absent m)
  | node => node

/-! ### Mismatches of single nodes -/

/-- The full name of a tag of the core types. -/
def coreTag (name : String) : Text := "tag:yaml.org,2002:".toList ++ name.toList

/-- What a meaning is called when something else was wanted. -/
def foundMeaning (text : Text) : Meaning → Found
  | .null => .null
  | .bool b => .bool b
  | .integer n width => .integer n width
  | .float f => .float f
  | .text => .text text

/-- The mismatch for a scalar where something else was wanted. A tag of a core type decides
what it means; a tag of the document's own changes nothing. -/
def scalarMismatch (tag : Option Text) (plain : Bool) (text wanted : Text) : MismatchCause :=
  let tagged (found : Option Found) (expected : String) : MismatchCause :=
    match found with
    | some f => .wrongKind f wanted
    | none => .wrongText text expected.toList
  let untagged : MismatchCause :=
    .wrongKind (if plain then foundMeaning text (Yaml.meaningOf text) else .text text) wanted
  match tag with
  | none => untagged
  | some t =>
    if t = coreTag "bool" then tagged ((Yaml.bool? text).map .bool) "a boolean"
    else if t = coreTag "int" then
      tagged ((Yaml.integer? text).map fun n => .integer n.1 n.2) "an integer"
    else if t = coreTag "float" then tagged ((Yaml.float? text).map .float) "a float"
    else if t = coreTag "null" then
      tagged (if Yaml.isNullWord text then some .null else none) "null"
    else if t.head? = some '!' then untagged
    else .wrongKind (.text text) wanted

/-- The mismatch for a node where something else was wanted. -/
def nodeMismatch (path : List PathStep) (wanted : Text) : Node → Mismatch
  | .scalar m tag plain text => ⟨scalarMismatch tag plain text wanted, some (path, m)⟩
  | .sequence m _ _ => ⟨.wrongKind .sequence wanted, some (path, m)⟩
  | .mapping m _ _ => ⟨.wrongKind .mapping wanted, some (path, m)⟩
  | .reference m _ => ⟨.wrongKind .null wanted, some (path, m)⟩

/-- Whether a scalar stands for a node that was left out. -/
def isAbsent (plain : Bool) (text : Text) : Bool := plain && text.isEmpty

/-! ### Shapes -/

/-- A text. -/
def text (d : Yaml.Document) (wanted : String) (path : List PathStep) (node : Node) :
    Result Text :=
  match follow d node with
  | .scalar _ _ _ text => .ok text
  | other => .error (nodeMismatch path wanted.toList other)

/-- The items of a sequence from an index on. -/
def items (element : List PathStep → Node → Result α) (path : List PathStep) :
    Nat → List Node → Result (List α)
  | _, [] => .ok []
  | index, node :: nodes => do
    let a ← element (path ++ [.item index]) node
    let rest ← items element path (index + 1) nodes
    .ok (a :: rest)

/-- A sequence whose items have one shape. -/
def sequence (d : Yaml.Document) (element : List PathStep → Node → Result α)
    (path : List PathStep) (node : Node) : Result (List α) :=
  match follow d node with
  | .sequence _ _ nodes => items element path 0 nodes
  | .scalar m tag plain text =>
    if isAbsent plain text then .ok []
    else .error (nodeMismatch path "a sequence".toList (.scalar m tag plain text))
  | other => .error (nodeMismatch path "a sequence".toList other)

/-- The step from a mapping to the value of a key. -/
def stepTo (key : Node) (name : Text) : PathStep :=
  match key with
  | .scalar .. => .field name
  | _ => .unnamed

/-- The fields of a mapping, taken in one after the other. -/
def fields (d : Yaml.Document) (take : σ → Text → List PathStep → Node → Result σ)
    (path : List PathStep) : σ → List (Node × Node) → Result σ
  | state, [] => .ok state
  | state, (key, value) :: entries => do
    let name ← text d "field identifier" path key
    let state ← take state name (path ++ [stepTo key name]) value
    fields d take path state entries

/-- A mapping with known fields, collected in a state. -/
def record (d : Yaml.Document) (wanted : String) (start : σ)
    (take : σ → Text → List PathStep → Node → Result σ) (finish : σ → Result α)
    (path : List PathStep) (node : Node) : Result α :=
  match follow d node with
  | .mapping m _ entries => placed path m do finish (← fields d take path start entries)
  | .scalar m tag plain text =>
    if isAbsent plain text then placed path m (finish start)
    else .error (nodeMismatch path wanted.toList (.scalar m tag plain text))
  | other => .error (nodeMismatch path wanted.toList other)

/-- The value of a field that may be given once. -/
def once (name : Text) (before : Option α) (value : Result α) : Result (Option α) :=
  if before.isSome then .error ⟨.repeatedField name, none⟩ else value.map some

/-- The value of a field that must be given. -/
def required (name : String) : Option α → Result α
  | some a => .ok a
  | none => .error ⟨.missingField name.toList, none⟩

/-! ### The shapes of rules -/

/-- The fields of a replacement met so far. -/
structure ReplacementFields where
  literal : Option Text := none
  substitute : Option Text := none

/-- A replacement. -/
def replacement (d : Yaml.Document) : List PathStep → Node → Result Replacement :=
  record d "struct Replacement" ({} : ReplacementFields)
    (fun s name path node => do
      if name = "from".toList then
        pure { s with literal := ← once name s.literal (text d "a string" path node) }
      else if name = "to".toList then
        pure { s with substitute := ← once name s.substitute (text d "a string" path node) }
      else pure s)
    (fun s => do pure ⟨← required "from" s.literal, ← required "to" s.substitute⟩)

/-- The fields of a placeholder met so far. -/
structure PlaceholderFields where
  name : Option Text := none
  description : Option Text := none
  sample : Option Text := none

/-- A placeholder. -/
def placeholder (d : Yaml.Document) : List PathStep → Node → Result Placeholder :=
  record d "struct Placeholder" ({} : PlaceholderFields)
    (fun s name path node => do
      if name = "placeholder".toList then
        pure { s with name := ← once name s.name (text d "a string" path node) }
      else if name = "description".toList then
        pure { s with description := ← once name s.description (text d "a string" path node) }
      else if name = "example".toList then
        pure { s with sample := ← once name s.sample (text d "a string" path node) }
      else pure s)
    (fun s => do
      pure ⟨← required "placeholder" s.name, ← required "description" s.description,
        ← required "example" s.sample⟩)

/-- The policy that a word names. -/
def policyOfWord (word : Text) : Result GuidePolicy :=
  if word = GuidePolicy.always.word then .ok .always
  else if word = GuidePolicy.whenUsed.word then .ok .whenUsed
  else .error ⟨.unknownPolicy word, none⟩

/-- The word in a tag of the document's own. -/
def tagWord? : Option Text → Option Text
  | some ('!' :: word) => some (if word.isEmpty then ['!'] else word)
  | _ => none

/-- What a policy named by a tag may be attached to: nothing. -/
def nothing (path : List PathStep) : Node → Result Unit
  | .scalar m _ plain text =>
    if plain && (text.isEmpty || Yaml.isNullWord text) then .ok ()
    else .error ⟨.wrongText text "null".toList, some (path, m)⟩
  | other => .error (nodeMismatch path "unit".toList other)

/-- A policy, named by a scalar or by a tag, at a node that is no reference. -/
def namedPolicy (path : List PathStep) (node : Node) : Result GuidePolicy :=
  let byTag (tag : Option Text) (otherwise : Result GuidePolicy) : Result GuidePolicy :=
    match tagWord? tag with
    | some word => do
      let policy ← policyOfWord word
      nothing path node
      pure policy
    | none => otherwise
  let wanted := "a YAML tag starting with '!'".toList
  match node with
  | .scalar m tag _ text => byTag tag (placed path m (policyOfWord text))
  | .sequence _ tag _ => byTag tag (.error (nodeMismatch path wanted node))
  | .mapping _ tag _ => byTag tag (.error (nodeMismatch path wanted node))
  | .reference _ _ => .error (nodeMismatch path wanted node)

/-- A policy. -/
def policy (d : Yaml.Document) (path : List PathStep) (node : Node) : Result GuidePolicy :=
  match node with
  | .reference m _ => placed path m (namedPolicy path (follow d node))
  | _ => namedPolicy path node

/-- The fields of a group met so far. -/
structure GroupFields where
  name : Option Text := none
  files : Option (List Text) := none
  guidePolicy : Option GuidePolicy := none
  replacements : Option (List Replacement) := none
  placeholders : Option (List Placeholder) := none

/-- A group. -/
def group (d : Yaml.Document) : List PathStep → Node → Result Group :=
  record d "struct RuleGroup" ({} : GroupFields)
    (fun s name path node => do
      if name = "name".toList then
        pure { s with name := ← once name s.name (text d "a string" path node) }
      else if name = "files".toList then
        pure { s with
          files := ← once name s.files (sequence d (text d "a string") path node) }
      else if name = "guide".toList then
        pure { s with guidePolicy := ← once name s.guidePolicy (policy d path node) }
      else if name = "replacements".toList then
        pure { s with
          replacements := ← once name s.replacements (sequence d (replacement d) path node) }
      else if name = "placeholders".toList then
        pure { s with
          placeholders := ← once name s.placeholders (sequence d (placeholder d) path node) }
      else pure s)
    (fun s => do
      let name ← required "name" s.name
      let files ← required "files" s.files
      pure
        { name := name
          files := files
          guidePolicy := s.guidePolicy.getD .always
          replacements := s.replacements.getD []
          placeholders := s.placeholders.getD [] })

/-- The fields of a rule set met so far. -/
structure RuleSetFields where
  notice : Option Text := none
  groups : Option (List Group) := none

/-- A rule set. -/
def ruleSet (d : Yaml.Document) : Result RuleSet :=
  record d "struct RuleSet" ({} : RuleSetFields)
    (fun s name path node => do
      if name = "notice".toList then
        pure { s with notice := ← once name s.notice (text d "a string" path node) }
      else if name = "groups".toList then
        pure { s with groups := ← once name s.groups (sequence d (group d) path node) }
      else pure s)
    (fun s => do
      let groups ← required "groups" s.groups
      pure { notice := s.notice.getD Notice.standard, groups := groups })
    [] d.root

end Reading

/-- Why a text gives no rules. -/
inductive RulesTextFault
  /-- It is not well-formed YAML, or holds more than one document. -/
  | malformed
  /-- It does not have the shape of a rule set. -/
  | mismatch (m : Mismatch)
  /-- Its rules are ambiguous. -/
  | invalid (fault : RuleFault)
  deriving DecidableEq, Repr

namespace RuleSet

/-- The rule set that a text describes. -/
def read (source : Text) : Except RulesTextFault RuleSet :=
  match Yaml.Document.read source with
  | none => .error .malformed
  | some d => (Reading.ruleSet d).mapError .mismatch

/-- The rule set that a text describes, if it can be applied unambiguously. -/
def ofYaml (source : Text) : Except RulesTextFault RuleSet := do
  let rules ← read source
  rules.validate.mapError .invalid
  pure rules

end RuleSet

end CommandTemplates
