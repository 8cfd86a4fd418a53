import CommandTemplates.Proofs.Rules.Validity
import CommandTemplates.Workspace.Rules
import Mathlib.Data.List.Duplicate

/-!
# What validation reports

Groups are examined in the order in which they are declared, and the first one with which
something is wrong ends the examination.  Whether something is wrong with a group depends on the
group and on those before it, and not on those behind it.

## Main Definitions

* `RuleSet.IsUnambiguous` — a rule set that can be applied unambiguously
* `Group.Breaks` — what a fault says of a group that comes after others
* `RuleFault.about` — the groups and the file that a fault is about
* `RuleSet.FirstFault` — a fault of the first group with which something is wrong
* `RuleSet.Seen` — the names and files that are remembered are those of the groups before

## Main Results

* `Group.Breaks.quoted_infix_message` — the text shown for a fault names the group at fault
* `RuleSet.Seen.breaks_or_passes` — a group that is examined is at fault or passes
* `RuleSet.Seen.exists_breaks` — groups that are rejected have a first one that is at fault
* `RuleSet.validate_exact` — what is accepted, what is reported, and who owns a file
-/

namespace CommandTemplates

/-- A text that is not blank has a character that can be seen. -/
theorem Text.isBlank_eq_false_iff {text : Text} :
    text.isBlank = false ↔ ∃ c ∈ text, isWhiteSpace c = false := by
  simp [Text.isBlank]

/-- A rule set that can be applied unambiguously. -/
structure RuleSet.IsUnambiguous (rules : RuleSet) : Prop where
  groups_ne_nil : rules.groups ≠ []
  name_shown : ∀ group ∈ rules.groups, ∃ c ∈ group.name, isWhiteSpace c = false
  names_nodup : (rules.groups.map (·.name)).Nodup
  files_ne_nil : ∀ group ∈ rules.groups, group.files ≠ []
  literal_ne_nil : ∀ group ∈ rules.groups, ∀ r ∈ group.replacements, r.literal ≠ []
  files_nodup : (rules.groups.flatMap (·.files)).Nodup

/-- What a fault says of a group: it does not have what is asked of it by itself, or has something
in common with a group before it. -/
inductive Group.Breaks (earlier : List Group) (group : Group) : RuleFault → Prop
  | blankName (h : ∀ c ∈ group.name, isWhiteSpace c = true) : Breaks earlier group .blankName
  | repeatedName (h : ∃ other ∈ earlier, other.name = group.name) :
      Breaks earlier group (.repeatedName group.name)
  | noFiles (h : group.files = []) : Breaks earlier group (.noFiles group.name)
  | emptyLiteral (h : ∃ r ∈ group.replacements, r.literal = []) :
      Breaks earlier group (.emptyLiteral group.name)
  | sharedFile {owner : Group} {file : Text} (howner : owner ∈ earlier) (h : file ∈ owner.files)
      (h' : file ∈ group.files) : Breaks earlier group (.sharedFile file owner.name group.name)
  | repeatedFile {file : Text} (h : group.files.Duplicate file) :
      Breaks earlier group (.sharedFile file group.name group.name)

/-! ### What is shown of a fault -/

namespace RuleFault

/-- The groups and the file that a fault is about. -/
def about : RuleFault → List Text
  | noGroups => []
  | blankName => []
  | repeatedName name => [name]
  | noFiles group => [group]
  | emptyLiteral group => [group]
  | sharedFile file owner group => [file, owner, group]

/-- What stands between a text that ends in a quote and one that begins with a quote is quoted. -/
theorem infix_append_of_quotes {front back : Text} (name : Text) (hfront : ['\''] <:+ front)
    (hback : ['\''] <+: back) : '\'' :: name ++ ['\''] <:+: front ++ name ++ back := by
  obtain ⟨before, rfl⟩ := hfront
  obtain ⟨after, rfl⟩ := hback
  exact ⟨before, after, by simp only [List.append_assoc, List.cons_append, List.nil_append]⟩

/-- The text shown for a fault names everything that the fault is about, in quotes. -/
theorem quoted_infix_message {fault : RuleFault} {name : Text} (h : name ∈ fault.about) :
    '\'' :: name ++ ['\''] <:+: fault.message := by
  have hgroup : ['\''] <:+ "group '".toList := by decide
  cases fault with
  | noGroups => cases h
  | blankName => cases h
  | repeatedName name' =>
    cases List.mem_singleton.mp h
    exact infix_append_of_quotes _ hgroup (by decide)
  | noFiles group =>
    cases List.mem_singleton.mp h
    exact infix_append_of_quotes _ hgroup (by decide)
  | emptyLiteral group =>
    cases List.mem_singleton.mp h
    exact infix_append_of_quotes _ hgroup (by decide)
  | sharedFile file owner group =>
    -- each of the three is followed by what is said of the next one
    have hboth : ['\''] <:+ "' is listed by both '".toList := by decide
    have hand : ['\''] <:+ "' and '".toList := by decide
    rw [about, List.mem_cons, List.mem_pair] at h
    rcases h with rfl | rfl | rfl
    · have hfile : '\'' :: name ++ ['\''] <:+:
          "file '".toList ++ name ++ "' is listed by both '".toList :=
        infix_append_of_quotes name (by decide) (by decide)
      have hfront : "file '".toList ++ name ++ "' is listed by both '".toList <+:
          (sharedFile name owner group).message :=
        (((List.prefix_append _ owner).trans (List.prefix_append _ _)).trans
          (List.prefix_append _ group)).trans (List.prefix_append _ _)
      exact hfile.trans hfront.isInfix
    · exact (infix_append_of_quotes name (hboth.trans (List.suffix_append _ _)) (by decide)).trans
        ((List.prefix_append _ _).trans (List.prefix_append _ _)).isInfix
    · exact infix_append_of_quotes name (hand.trans (List.suffix_append _ _)) (by decide)

end RuleFault

/-- The text shown for a fault of a group names the group, unless its name shows nothing. -/
theorem Group.Breaks.quoted_infix_message {earlier : List Group} {group : Group}
    {fault : RuleFault} (h : group.Breaks earlier fault)
    (hshown : ∃ c ∈ group.name, isWhiteSpace c = false) :
    '\'' :: group.name ++ ['\''] <:+: fault.message := by
  refine RuleFault.quoted_infix_message ?_
  cases h with
  | blankName hblank =>
    obtain ⟨c, hc, hspace⟩ := hshown
    exact absurd (hblank c hc) (ne_true_of_eq_false hspace)
  | repeatedName => exact List.mem_singleton_self _
  | noFiles => exact List.mem_singleton_self _
  | emptyLiteral => exact List.mem_singleton_self _
  | sharedFile => simp [RuleFault.about]
  | repeatedFile => simp [RuleFault.about]

namespace RuleSet

/-- A fault of the first group, in declared order, with which something is wrong. -/
inductive FirstFault (rules : RuleSet) : RuleFault → Prop
  | noGroups (h : rules.groups = []) : FirstFault rules .noGroups
  | ofGroup {before after : List Group} {group : Group} {fault : RuleFault}
      (hsplit : rules.groups = before ++ group :: after) (h : group.Breaks before fault)
      (hfirst : ∀ front earlier back, before = front ++ earlier :: back →
        ∀ fault', ¬ earlier.Breaks front fault') : FirstFault rules fault

variable {rules : RuleSet} {names : List Text} {owners owners' : Owners}
  {earlier groups : List Group} {group : Group} {name file : Text} {files : List Text}
  {fault : RuleFault}

/-- A rule set is accepted exactly when it is unambiguous. -/
theorem validate_eq_ok_iff_isUnambiguous : rules.validate = .ok () ↔ rules.IsUnambiguous := by
  rw [validate_eq_ok_iff]
  constructor
  · rintro ⟨hgroups, hsound, hnames, hfiles⟩
    exact
      { groups_ne_nil := hgroups
        name_shown := fun g hg => Text.isBlank_eq_false_iff.mp (hsound g hg).name_shown
        names_nodup := hnames
        files_ne_nil := fun g hg => (hsound g hg).files_ne_nil
        literal_ne_nil := fun g hg => (hsound g hg).literal_ne_nil
        files_nodup := hfiles }
  · intro h
    refine ⟨h.groups_ne_nil, fun g hg => ?_, h.names_nodup, h.files_nodup⟩
    exact ⟨Text.isBlank_eq_false_iff.mpr (h.name_shown g hg), h.files_ne_nil g hg,
      h.literal_ne_nil g hg⟩

/-! ### Groups that are accepted -/

/-- Nothing is wrong with a group that is accepted, together with the groups before it. -/
theorem not_breaks_of_validateGroups {front back : List Group}
    (h : validateGroups [] [] (front ++ group :: back) = .ok ()) (fault : RuleFault) :
    ¬ group.Breaks front fault := by
  obtain ⟨hsound, ⟨hnames, -⟩, hfiles, -⟩ := validateGroups_eq_ok_iff.mp h
  have hgroup : group.IsSound := hsound group (by simp)
  rw [List.map_append, List.map_cons, List.nodup_append] at hnames
  rw [List.flatMap_append, List.flatMap_cons, List.nodup_append, List.nodup_append] at hfiles
  intro hbreaks
  cases hbreaks with
  | blankName hblank =>
    obtain ⟨c, hc, hshown⟩ := Text.isBlank_eq_false_iff.mp hgroup.name_shown
    exact Bool.false_ne_true (hshown.symm.trans (hblank c hc))
  | repeatedName hother =>
    obtain ⟨other, hmem, hname⟩ := hother
    exact hnames.2.2 _ (List.mem_map_of_mem hmem) _ List.mem_cons_self hname
  | noFiles hnil => exact hgroup.files_ne_nil hnil
  | emptyLiteral hempty =>
    obtain ⟨r, hr, hnil⟩ := hempty
    exact hgroup.literal_ne_nil r hr hnil
  | sharedFile howner hfile hfile' =>
    exact hfiles.2.2 _ (List.mem_flatMap_of_mem howner hfile) _ (List.mem_append_left _ hfile') rfl
  | repeatedFile hduplicate => exact hduplicate.not_nodup hfiles.2.1.1

/-! ### Groups that are rejected -/

/-- A file that cannot be added to those seen before is one of them, or is listed twice. -/
theorem exists_of_claimFiles_eq_error (h : claimFiles name owners files = .error fault) :
    ∃ file owner, fault = .sharedFile file owner name ∧
      ((file, owner) ∈ owners ∧ file ∈ files ∨ owner = name ∧ files.Duplicate file) := by
  induction files generalizing owners with
  | nil => cases h
  | cons file files ih =>
    rw [claimFiles] at h
    split at h
    · next owner hlookup =>
      obtain ⟨front, back, howners, -⟩ := List.lookup_eq_some_iff.mp hlookup
      cases h
      exact ⟨file, owner, rfl, Or.inl ⟨by simp [howners], List.mem_cons_self⟩⟩
    · obtain ⟨file', owner, hfault, hseen | ⟨hname, hduplicate⟩⟩ := ih h
      · refine ⟨file', owner, hfault, ?_⟩
        rcases List.mem_cons.mp hseen.1 with heq | hmem
        · -- it was seen earlier in the list
          obtain ⟨rfl, rfl⟩ := Prod.mk.inj heq
          exact Or.inr ⟨rfl, .cons_mem hseen.2⟩
        · exact Or.inl ⟨hmem, List.mem_cons_of_mem _ hseen.2⟩
      · exact ⟨file', owner, hfault, Or.inr ⟨hname, hduplicate.duplicate_cons file⟩⟩

/-- The names and the files that are remembered are those of the groups before. -/
structure Seen (earlier : List Group) (names : List Text) (owners : Owners) : Prop where
  name : ∀ name ∈ names, ∃ group ∈ earlier, group.name = name
  owner : ∀ p ∈ owners, ∃ group ∈ earlier, group.name = p.2 ∧ p.1 ∈ group.files

namespace Seen

/-- Nothing is remembered before the first group. -/
theorem start : Seen [] [] [] := ⟨nofun, nofun⟩

/-- A group whose files could be added is remembered with the groups before it. -/
theorem concat (hseen : Seen earlier names owners)
    (h : claimFiles group.name owners group.files = .ok owners') :
    Seen (earlier ++ [group]) (group.name :: names) owners' := by
  obtain ⟨-, -, rfl⟩ := claimFiles_eq_ok_iff.mp h
  constructor
  · intro name hname
    rcases List.mem_cons.mp hname with rfl | hname
    · exact ⟨group, by simp, rfl⟩
    · obtain ⟨other, hother, heq⟩ := hseen.name name hname
      exact ⟨other, List.mem_append_left _ hother, heq⟩
  · intro p hp
    rcases List.mem_append.mp hp with hp | hp
    · obtain ⟨file, hfile, rfl⟩ := List.mem_map.mp (List.mem_reverse.mp hp)
      exact ⟨group, by simp, rfl, hfile⟩
    · obtain ⟨other, hother, hfile⟩ := hseen.owner p hp
      exact ⟨other, List.mem_append_left _ hother, hfile⟩

/-- Where groups are rejected, the fault is with the first of them, or this one passes and the
others are rejected after it. -/
theorem breaks_or_passes (hseen : Seen earlier names owners)
    (h : validateGroups names owners (group :: groups) = .error fault) :
    group.Breaks earlier fault ∨
      ∃ owners', claimFiles group.name owners group.files = .ok owners' ∧
        validateGroups names owners [group] = .ok () ∧
        validateGroups (group.name :: names) owners' groups = .error fault := by
  rw [validateGroups] at h
  split_ifs at h with hblank hname hempty hliteral
  · cases h
    exact Or.inl (.blankName (List.all_eq_true.mp hblank))
  · cases h
    exact Or.inl (.repeatedName (hseen.name _ (List.contains_iff_mem.mp hname)))
  · cases h
    exact Or.inl (.noFiles (List.isEmpty_iff.mp hempty))
  · cases h
    obtain ⟨r, hr, hnil⟩ := List.any_eq_true.mp hliteral
    exact Or.inl (.emptyLiteral ⟨r, hr, List.isEmpty_iff.mp hnil⟩)
  · cases hclaim : claimFiles group.name owners group.files with
    | error fault' =>
      rw [hclaim] at h
      cases h
      obtain ⟨file, owner, rfl, ⟨hmem, hfile⟩ | ⟨rfl, hduplicate⟩⟩ :=
        exists_of_claimFiles_eq_error hclaim
      · obtain ⟨other, hother, rfl, hlists⟩ := hseen.owner _ hmem
        exact Or.inl (.sharedFile hother hlists hfile)
      · exact Or.inl (.repeatedFile hduplicate)
    | ok owners' =>
      rw [hclaim] at h
      refine Or.inr ⟨owners', rfl, ?_, h⟩
      rw [validateGroups, if_neg hblank, if_neg hname, if_neg hempty, if_neg hliteral, hclaim]
      rfl

/-- Groups that are rejected have one that is at fault, behind groups that are accepted. -/
theorem exists_breaks (hseen : Seen earlier names owners)
    (h : validateGroups names owners groups = .error fault) :
    ∃ before group after, groups = before ++ group :: after ∧
      validateGroups names owners before = .ok () ∧ group.Breaks (earlier ++ before) fault := by
  induction groups generalizing earlier names owners with
  | nil => cases h
  | cons first groups ih =>
    -- a group that passes is remembered when the next one is examined
    rcases hseen.breaks_or_passes h with hbreaks | ⟨owners', hclaim, hpasses, hrest⟩
    · exact ⟨[], first, groups, rfl, rfl, by rwa [List.append_nil]⟩
    · obtain ⟨before, group, after, rfl, hbefore, hbreaks⟩ := ih (hseen.concat hclaim) hrest
      obtain ⟨hsound, hname, -⟩ := validateGroups_cons_eq_ok_iff.mp hpasses
      refine ⟨first :: before, group, after, rfl, ?_, ?_⟩
      · exact validateGroups_cons_eq_ok_iff.mpr ⟨hsound, hname, owners', hclaim, hbefore⟩
      · rwa [List.append_assoc, List.singleton_append] at hbreaks

end Seen

/-- A rule set that is rejected is rejected for a fault of the first group that has one. -/
theorem firstFault_of_validate (h : rules.validate = .error fault) : rules.FirstFault fault := by
  rw [validate] at h
  split at h
  · next hempty =>
    cases h
    exact .noGroups (List.isEmpty_iff.mp hempty)
  · obtain ⟨before, group, after, hsplit, hbefore, hbreaks⟩ := Seen.start.exists_breaks h
    refine .ofGroup hsplit (by rwa [List.nil_append] at hbreaks) ?_
    rintro front first back rfl fault'
    exact not_breaks_of_validateGroups hbefore fault'

/-- No text with rules that are rejected is accepted. -/
theorem ofYaml_of_validate {source : Text} (hread : read source = .ok rules)
    (h : rules.validate = .error fault) : ofYaml source = .error (.invalid fault) := by
  simp [ofYaml, hread, h, bind, Except.bind, Except.mapError]

/-! ### Main result -/

/-- A file has no owner when no group lists it. -/
theorem groupFor_eq_none_iff : rules.groupFor file = none ↔
    ∀ group ∈ rules.groups, file ∉ group.files := by
  simp [groupFor]

/-- A rule set is accepted exactly when it is unambiguous.  If it is not, no text with these rules
is accepted, and the fault that is reported is that there are no groups, or is a fault of the
first group with which something is wrong.  In an accepted rule set the group that owns a file is
the one that lists it, and a file has no owner when none does. -/
theorem validate_exact (rules : RuleSet) :
    (rules.validate = .ok () ↔ rules.IsUnambiguous) ∧
      (¬ rules.IsUnambiguous → ∃ fault, rules.validate = .error fault ∧ rules.FirstFault fault ∧
        ∀ source path, read source = .ok rules →
          (ofYaml source).mapError (·.failure path) = .error (.rulesInvalid fault.message)) ∧
      (rules.validate = .ok () → ∀ file,
        (∀ group, rules.groupFor file = some group ↔
          group ∈ rules.groups ∧ file ∈ group.files) ∧
        (rules.groupFor file = none ↔ ∀ group ∈ rules.groups, file ∉ group.files)) := by
  refine ⟨validate_eq_ok_iff_isUnambiguous, ?_, ?_⟩
  · intro hambiguous
    rw [← validate_eq_ok_iff_isUnambiguous] at hambiguous
    cases hvalidate : rules.validate with
    | ok => exact absurd hvalidate hambiguous
    | error fault =>
      refine ⟨fault, rfl, firstFault_of_validate hvalidate, fun source path hread => ?_⟩
      rw [ofYaml_of_validate hread hvalidate]
      rfl
  · intro hvalid file
    exact ⟨fun group => groupFor_eq_some_iff hvalid, groupFor_eq_none_iff⟩

/-- Two groups are at fault, and the one that is declared first is reported, for the file that it
has in common with the group before it. -/
theorem validate_exact_shared :
    let shared : Group := { name := ['a'], files := ["x.md".toList] }
    let first : Group := { name := ['b'], files := ["y.md".toList, "x.md".toList] }
    let second : Group := { name := [' '], files := [] }
    let rules : RuleSet := ⟨[], [shared, first, second]⟩
    let fault : RuleFault := .sharedFile "x.md".toList ['a'] ['b']
    (¬ rules.IsUnambiguous ∧ rules.validate = .error fault ∧ rules.FirstFault fault) ∧
      RuleSet.builtin.validate = .ok () ∧
      RuleSet.builtin.groupFor "dev-logs.md".toList = some deprecatedAliases := by
  intro shared first second rules fault
  have hvalidate : rules.validate = .error fault := by decide
  have hbuiltin : RuleSet.builtin.validate = .ok () := by decide +kernel
  obtain ⟨hiff, hfault, -⟩ := validate_exact rules
  have hambiguous : ¬ rules.IsUnambiguous := by
    rw [← hiff, hvalidate]
    exact nofun
  obtain ⟨fault', hvalidate', hfirst, -⟩ := hfault hambiguous
  cases hvalidate.symm.trans hvalidate'
  refine ⟨⟨hambiguous, hvalidate, hfirst⟩, hbuiltin, ?_⟩
  rw [((validate_exact builtin).2.2 hbuiltin _).1]
  exact ⟨List.mem_cons_self, by decide⟩

end RuleSet

end CommandTemplates
