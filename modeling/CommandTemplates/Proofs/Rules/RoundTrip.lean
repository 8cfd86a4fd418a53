import CommandTemplates.Proofs.Rules.Layout
import CommandTemplates.Rules.Builtin
import CommandTemplates.Rules.Reading

/-!
# Printed rules can be loaded

A rule set that is printed and loaded again is the same rule set.  The built-in rules are what the
text that is shipped with them says.

## Main Definitions

* `PrintsFields`, `PrintsItem` — lines for fields of a record and for an item of a list
* `RuleSet.texts` — all texts of a rule set
* `Reading.Collects` — what the fields of a record add up to

## Main Results

* `printsItem_group` — the lines of a group
* `Reading.group_of_isRecord` — a record with the fields of a group is read as the group
* `RuleSet.read_toYaml` — the document of a rule set describes it
* `RuleSet.ofYaml_toYaml` — a valid rule set survives printing and loading
* `RuleSet.ofYaml_builtinSource` — the shipped text is accepted, and gives the built-in rules

## Design Notes

What a rule set looks like is said once, by the fields of its records; printing and reading are
compared with them and never with each other.
-/

namespace CommandTemplates

open Yaml Yaml.Node Yaml.Scanner

/-! ### Printing -/

section Printing

variable {column : Nat} {fields : List Field} {chunk chunk' value : Text} {name : String}

/-- Lines for fields of a record: they are read as the lexemes of the fields, and these describe the
values.  The two parts are about different halves of the reader, and never looked at together. -/
structure PrintsFields (column : Nat) (fields : List Field) (chunk : Text) : Prop where
  scans : Scans column (fields.flatMap Field.entry) chunk
  describes : ∀ f ∈ fields, Describes .entry f.lexemes f.holds

/-- Lines for an item of a list, in the same way. -/
structure PrintsItem (column : Nat) (lexemes : List Lexeme) (holds : Node → Prop) (chunk : Text) :
    Prop where
  scans : Scans column (.blockEntry :: lexemes) chunk
  describes : Describes .block lexemes holds

/-- A field before others. -/
theorem PrintsFields.cons {f : Field} (h : PrintsFields column [f] chunk)
    (hmore : PrintsFields column fields chunk') :
    PrintsFields column (f :: fields) (chunk ++ chunk') where
  scans := by
    rw [← List.singleton_append, List.flatMap_append]
    exact h.scans.append hmore.scans
  describes := List.forall_mem_append.mpr ⟨h.describes, hmore.describes⟩

/-- The line of a text is one for its field. -/
theorem printsFields_text (hname : IsFieldName name.toList) (hvalue : HasNoSeparator value) :
    PrintsFields column [textField name value] (Writing.field column false name value) where
  scans := by
    rw [List.flatMap_singleton]
    exact scans_field hname hvalue
  describes := List.forall_mem_singleton.mpr describes_text

/-- The lines of a list are lines for its field, if those of the items are lines for items. -/
theorem printsFields_list {α : Type} {items : List α} {lexemesOf : α → List Lexeme}
    {holds : α → Node → Prop} {write : α → Text} (hname : IsFieldName name.toList)
    (h : ∀ a ∈ items, PrintsItem column (lexemesOf a) (holds a) (write a)) :
    PrintsFields column [listField name lexemesOf holds items]
      (Writing.list column name (items.map write)) where
  scans := by
    rw [List.flatMap_singleton]
    exact scans_list hname fun a ha => (h a ha).scans
  describes :=
    List.forall_mem_singleton.mpr (describes_list fun a ha => (h a ha).describes)

/-- The line of a text in a list is one for an item. -/
theorem printsItem_text (hvalue : HasNoSeparator value) :
    PrintsItem column [scalarLexeme value] (IsText value) (Writing.item column value) where
  scans := scans_item hvalue
  describes := describes_text

/-- The lines of a record in a list are lines for an item: the first field stands behind the dash,
and the others are indented to it. -/
theorem printsItem_record (hname : IsFieldName name.toList) (hvalue : HasNoSeparator value)
    (hmore : PrintsFields (column + 2) fields chunk) :
    PrintsItem column (recordLexemes (textField name value :: fields))
      (IsRecord (textField name value :: fields))
      (Writing.field (column + 2) true name value ++ chunk) where
  scans := scans_record hname hvalue hmore.scans
  describes := describes_record (List.forall_mem_cons.mpr ⟨describes_text, hmore.describes⟩)

/-- Lines that stand for a whole document are read as one, with a root that is a record of these
fields. -/
theorem exists_read (hname : IsFieldName name.toList) (hvalue : HasNoSeparator value)
    (hmore : PrintsFields 0 fields chunk) :
    ∃ d, Document.read (Writing.field 0 false name value ++ chunk) = some d ∧
      IsRecord (textField name value :: fields) d.root := by
  obtain ⟨tokens, htokens, hlexemes⟩ := tokens?_document hname hvalue hmore.scans
  exact read_of_describes htokens hlexemes
    (describes_record (List.forall_mem_cons.mpr ⟨describes_text, hmore.describes⟩))

end Printing

/-! ### The fields of rules -/

/-- The fields of a replacement. -/
def replacementFields (r : Replacement) : List Field :=
  [textField "from" r.literal, textField "to" r.substitute]

/-- The fields of a placeholder. -/
def placeholderFields (p : Placeholder) : List Field :=
  [textField "placeholder" p.name, textField "description" p.description,
    textField "example" p.sample]

/-- A field with a list of records. -/
def recordsField {α : Type} (name : String) (fieldsOf : α → List Field) (items : List α) : Field :=
  listField name (fun a => recordLexemes (fieldsOf a)) (fun a => IsRecord (fieldsOf a)) items

/-- The fields of a group. -/
def groupFields (g : Group) : List Field :=
  [textField "name" g.name,
    listField "files" (fun file => [scalarLexeme file]) IsText g.files,
    textField "guide" g.guidePolicy.word,
    recordsField "replacements" replacementFields g.replacements,
    recordsField "placeholders" placeholderFields g.placeholders]

/-- The fields of a rule set. -/
def ruleSetFields (rules : RuleSet) : List Field :=
  [textField "notice" rules.notice, recordsField "groups" groupFields rules.groups]

/-- The texts of a group. -/
def Group.texts (g : Group) : List Text :=
  g.name :: g.files ++ g.replacements.flatMap (fun r => [r.literal, r.substitute]) ++
    g.placeholders.flatMap (fun p => [p.name, p.description, p.sample])

/-- All texts of a rule set.  The words for policies are not among them, since they are not for the
author of the rules to choose. -/
def RuleSet.texts (rules : RuleSet) : List Text :=
  rules.notice :: rules.groups.flatMap Group.texts

/-- The lines of a replacement. -/
theorem printsItem_replacement {r : Replacement} (hliteral : HasNoSeparator r.literal)
    (hsubstitute : HasNoSeparator r.substitute) :
    PrintsItem 2 (recordLexemes (replacementFields r)) (IsRecord (replacementFields r))
      (Writing.replacement r) :=
  printsItem_record (by decide) hliteral (printsFields_text (by decide) hsubstitute)

/-- The lines of a placeholder. -/
theorem printsItem_placeholder {p : Placeholder} (hname : HasNoSeparator p.name)
    (hdescription : HasNoSeparator p.description) (hsample : HasNoSeparator p.sample) :
    PrintsItem 2 (recordLexemes (placeholderFields p)) (IsRecord (placeholderFields p))
      (Writing.placeholder p) := by
  rw [Writing.placeholder, List.append_assoc]
  exact printsItem_record (by decide) hname (.cons (printsFields_text (by decide) hdescription)
    (printsFields_text (by decide) hsample))

/-- The lines of a group. -/
theorem printsItem_group {g : Group} (h : ∀ text ∈ g.texts, HasNoSeparator text) :
    PrintsItem 0 (recordLexemes (groupFields g)) (IsRecord (groupFields g))
      (Writing.group g) := by
  simp only [Group.texts, List.forall_mem_append, List.forall_mem_cons, List.forall_mem_flatMap]
    at h
  obtain ⟨⟨⟨hname, hfiles⟩, hreplacements⟩, hplaceholders⟩ := h
  have hword : HasNoSeparator g.guidePolicy.word := by
    cases g.guidePolicy <;> decide
  rw [Writing.group, List.append_assoc, List.append_assoc, List.append_assoc]
  refine printsItem_record (by decide) hname
    (.cons ?files (.cons ?guide (.cons ?replacements ?placeholders)))
  case files =>
    exact printsFields_list (by decide) fun file hfile => printsItem_text (hfiles file hfile)
  case guide => exact printsFields_text (by decide) hword
  case replacements =>
    refine printsFields_list (by decide) fun r hr => ?_
    obtain ⟨hliteral, hsubstitute, -⟩ := hreplacements r hr
    exact printsItem_replacement hliteral hsubstitute
  case placeholders =>
    refine printsFields_list (by decide) fun p hp => ?_
    obtain ⟨hname, hdescription, hsample, -⟩ := hplaceholders p hp
    exact printsItem_placeholder hname hdescription hsample

/-! ### Loading -/

namespace Reading

variable {α σ : Type} {d : Document} {path : List PathStep} {n : Node}

/-- A text is read as it is. -/
theorem text_of_isText {wanted : String} {value : Text} (h : IsText value n) :
    text d wanted path n = .ok value := by
  obtain ⟨m, plain, rfl⟩ := h
  rfl

/-- A list is read when every item is. -/
theorem sequence_of_isList {holds : α → Node → Prop} {items : List α}
    {element : List PathStep → Node → Result α}
    (hread : ∀ a ∈ items, ∀ path n, holds a n → element path n = .ok a)
    (h : IsList holds items n) : sequence d element path n = .ok items := by
  obtain ⟨m, nodes, rfl, h⟩ := h
  change Reading.items element path 0 nodes = .ok items
  generalize 0 = index
  induction h generalizing index with
  | nil => rfl
  | cons hn _ ih =>
    rw [List.forall_mem_cons] at hread
    rw [Reading.items, hread.1 _ _ hn, ih hread.2]
    rfl

/-- What the fields of a record add up to, one after the other.  A reader keeps what it has seen so
far in a state, and no field of these records is given twice. -/
inductive Collects (take : σ → Text → List PathStep → Node → Result σ) :
    σ → List Field → σ → Prop
  | nil (s : σ) : Collects take s [] s
  | cons {s t u : σ} {f : Field} {fields : List Field}
      (htake : ∀ path n, f.holds n → take s f.name.toList path n = .ok t)
      (hmore : Collects take t fields u) : Collects take s (f :: fields) u

/-- A record is read when its fields are, and when what they add up to is complete. -/
theorem record_of_isRecord {take : σ → Text → List PathStep → Node → Result σ}
    {finish : σ → Result α} {wanted : String} {start s : σ} {a : α} {fields : List Field}
    (hcollects : Collects take start fields s) (hfinish : finish s = .ok a)
    (h : IsRecord fields n) : record d wanted start take finish path n = .ok a := by
  obtain ⟨m, entries, rfl, h⟩ := h
  have hfields : Reading.fields d take path start entries = .ok s := by
    clear hfinish
    induction hcollects generalizing entries with
    | nil s =>
      cases h
      rfl
    | cons htake _ ih =>
      obtain ⟨e, entries, ⟨hname, hvalue⟩, hmore, rfl⟩ := List.forall₂_cons_left_iff.mp h
      rw [Reading.fields, text_of_isText hname, ← ih entries hmore]
      change (take _ _ _ e.2 >>= _) = _
      rw [htake _ _ hvalue]
      rfl
  change placed path m (do finish (← Reading.fields d take path start entries)) = .ok a
  rw [hfields]
  change placed path m (finish s) = .ok a
  rw [hfinish]
  rfl

/-- A field that was not given before is taken, with the value that its node has. -/
theorem map_once_of_ok {name : Text} {value : Result α} {a : α} {put : Option α → σ}
    (h : value = .ok a) : put <$> once name none value = .ok (put (some a)) := by
  rw [h]
  rfl

/-- The word for a policy is read as the policy. -/
theorem policy_of_isText {p : GuidePolicy} (h : IsText p.word n) : policy d path n = .ok p := by
  obtain ⟨m, plain, rfl⟩ := h
  have hword : policyOfWord p.word = .ok p := by
    cases p <;> rfl
  change placed path m (policyOfWord p.word) = .ok p
  rw [hword]
  rfl

/-- A record with the fields of a replacement. -/
theorem replacement_of_isRecord {r : Replacement} (h : IsRecord (replacementFields r) n) :
    replacement d path n = .ok r := by
  refine record_of_isRecord (s := ⟨some r.literal, some r.substitute⟩) ?_ rfl h
  refine .cons (t := ⟨some r.literal, none⟩) (fun path n hn => ?_) <|
    .cons (fun path n hn => ?_) (.nil _)
  all_goals simp [textField, map_once_of_ok (text_of_isText hn)]

/-- A record with the fields of a placeholder. -/
theorem placeholder_of_isRecord {p : Placeholder} (h : IsRecord (placeholderFields p) n) :
    placeholder d path n = .ok p := by
  refine record_of_isRecord (s := ⟨some p.name, some p.description, some p.sample⟩) ?_ rfl h
  refine .cons (t := ⟨some p.name, none, none⟩) (fun path n hn => ?_) <|
    .cons (t := ⟨some p.name, some p.description, none⟩) (fun path n hn => ?_) <|
    .cons (fun path n hn => ?_) (.nil _)
  all_goals simp [textField, map_once_of_ok (text_of_isText hn)]

/-- A record with the fields of a group. -/
theorem group_of_isRecord {g : Group} (h : IsRecord (groupFields g) n) :
    group d path n = .ok g := by
  refine record_of_isRecord (s := ⟨some g.name, some g.files, some g.guidePolicy,
    some g.replacements, some g.placeholders⟩) ?_ rfl h
  refine .cons (t := ⟨some g.name, none, none, none, none⟩) (fun path n hn => ?name) <|
    .cons (t := ⟨some g.name, some g.files, none, none, none⟩) (fun path n hn => ?files) <|
    .cons (t := ⟨some g.name, some g.files, some g.guidePolicy, none, none⟩)
      (fun path n hn => ?guide) <|
    .cons (t := ⟨some g.name, some g.files, some g.guidePolicy, some g.replacements, none⟩)
      (fun path n hn => ?replacements) <|
    .cons (fun path n hn => ?placeholders) (.nil _)
  case name => simp [textField, map_once_of_ok (text_of_isText hn)]
  case files =>
    have hfiles : sequence d (text d "a string") path n = .ok g.files :=
      sequence_of_isList (fun _ _ _ _ => text_of_isText) hn
    simp [listField, map_once_of_ok hfiles]
  case guide => simp [textField, map_once_of_ok (policy_of_isText hn)]
  case replacements =>
    have hreplacements : sequence d (replacement d) path n = .ok g.replacements :=
      sequence_of_isList (fun _ _ _ _ => replacement_of_isRecord) hn
    simp [recordsField, listField, map_once_of_ok hreplacements]
  case placeholders =>
    have hplaceholders : sequence d (placeholder d) path n = .ok g.placeholders :=
      sequence_of_isList (fun _ _ _ _ => placeholder_of_isRecord) hn
    simp [recordsField, listField, map_once_of_ok hplaceholders]

/-- A document with the fields of a rule set. -/
theorem ruleSet_of_isRecord {rules : RuleSet} (h : IsRecord (ruleSetFields rules) d.root) :
    ruleSet d = .ok rules := by
  refine record_of_isRecord (s := ⟨some rules.notice, some rules.groups⟩) ?_ rfl h
  refine .cons (t := ⟨some rules.notice, none⟩) (fun path n hn => ?notice) <|
    .cons (fun path n hn => ?groups) (.nil _)
  case notice => simp [textField, map_once_of_ok (text_of_isText hn)]
  case groups =>
    have hgroups : sequence d (group d) path n = .ok rules.groups :=
      sequence_of_isList (fun _ _ _ _ => group_of_isRecord) hn
    simp [recordsField, listField, map_once_of_ok hgroups]

end Reading

namespace RuleSet

variable {rules : RuleSet}

/-- The document of a rule set describes it, whether or not the rules can be applied. -/
theorem read_toYaml (h : ∀ text ∈ rules.texts, HasNoSeparator text) :
    read rules.toYaml = .ok rules := by
  rw [texts, List.forall_mem_cons, List.forall_mem_flatMap] at h
  obtain ⟨hnotice, hgroups⟩ := h
  have hlines : PrintsFields 0 [recordsField "groups" groupFields rules.groups]
      (Writing.list 0 "groups" (rules.groups.map Writing.group)) :=
    printsFields_list (by decide) fun g hg => printsItem_group (hgroups g hg)
  have hname : IsFieldName "notice".toList := by decide
  obtain ⟨d, hread, hroot⟩ := exists_read hname hnotice hlines
  have hrules : Reading.ruleSet d = .ok rules := Reading.ruleSet_of_isRecord hroot
  rw [read, toYaml, hread]
  change (Reading.ruleSet d).mapError RulesTextFault.mismatch = .ok rules
  rw [hrules]
  rfl

/-- A rule set that a text gives is what the text describes, and can be applied unambiguously. -/
theorem ofYaml_eq_ok_iff {source : Text} :
    ofYaml source = .ok rules ↔ read source = .ok rules ∧ rules.validate = .ok () := by
  rw [ofYaml]
  cases hread : read source with
  | error fault => simp [bind, Except.bind]
  | ok rules' =>
    cases hvalidate : rules'.validate with
    | error fault =>
      simp only [bind, Except.bind, Except.mapError, hvalidate, reduceCtorEq, false_iff]
      rintro ⟨hrules, hvalid⟩
      cases hrules
      exact absurd (hvalidate.symm.trans hvalid) nofun
    | ok =>
      simp only [bind, Except.bind, Except.mapError, hvalidate, pure, Except.pure]
      constructor
      · intro h
        cases h
        exact ⟨rfl, hvalidate⟩
      · exact And.left

/-- A valid rule set without separators survives printing and loading. -/
theorem ofYaml_toYaml (hvalid : rules.validate = .ok ())
    (htexts : ∀ text ∈ rules.texts, HasNoSeparator text) :
    ofYaml rules.toYaml = .ok rules :=
  ofYaml_eq_ok_iff.mpr ⟨read_toYaml htexts, hvalid⟩

/-- Rules with texts that look like something else, or that a document cannot show as they are. -/
def awkward : RuleSet where
  notice := "\n  indented\n\n".toList
  groups :=
    [{ name := "null".toList
       files := ["- a: b".toList, "0x1F".toList, [], " padded ".toList]
       guidePolicy := .whenUsed
       replacements := [⟨"it's # \"quoted\"".toList, "tab\tbell\u0007".toList⟩, ⟨"~".toList, []⟩]
       placeholders :=
        [⟨"[true, 1.5]".toList, "two\nlines".toList, "é \ufeff \u0085\r\n".toList⟩] },
     { name := "---".toList, files := ["*".toList] }]

/-- None of the awkward texts is lost. -/
theorem ofYaml_toYaml_awkward :
    awkward.validate = .ok () ∧ (∀ text ∈ awkward.texts, HasNoSeparator text) ∧
      ofYaml awkward.toYaml = .ok awkward := by
  have hvalid : awkward.validate = .ok () := by decide
  have htexts : ∀ text ∈ awkward.texts, HasNoSeparator text := by decide
  exact ⟨hvalid, htexts, ofYaml_toYaml hvalid htexts⟩

/-! ### The built-in rules -/

/-- The text that is shipped gives the built-in rules.  They are the same rules that a user would
get by loading that text, comments, quotes and all, and loading it never fails. -/
theorem ofYaml_builtinSource : ofYaml builtinSource = .ok builtin := by
  unfold builtinSource builtinLines builtin deprecatedAliases workflowCommands rollback
    Notice.standard
  -- a literal is opened before anything is computed, since the kernel is slow to do so
  repeat rewrite [String.toList_ofList]
  decide +kernel

/-- The built-in rules can be applied unambiguously, since loading them has checked that. -/
theorem validate_builtin : builtin.validate = .ok () :=
  (ofYaml_eq_ok_iff.mp ofYaml_builtinSource).2

end RuleSet

end CommandTemplates
