import CommandTemplates.Rules.Validity
import Mathlib.Data.List.Flatten
import Mathlib.Data.List.Nodup

/-!
# What validation accepts

Groups are examined one after the other, each against what was seen before it.  What comes of
it can be said of all groups at once.

## Main Definitions

* `Group.IsSound` — what is asked of a group by itself
* `RuleSet.chosen` — the groups that are chosen by names

## Main Results

* `RuleSet.claimFiles_eq_ok_iff` — the files of a group can be added to those seen before
* `RuleSet.validate_eq_ok_iff` — a rule set is accepted exactly when it is unambiguous
* `RuleSet.groupFor_eq_some_iff` — in an accepted rule set the group that lists a file owns it
* `RuleSet.select_eq_ok_iff`, `RuleSet.select_eq_error_iff` — groups are chosen unless a name is
  not known, and then the first such name is the error
* `RuleSet.nodup_files_chosen` — no chosen file of an accepted rule set is listed twice
-/

namespace CommandTemplates

/-- What is asked of a group by itself.  What is asked of groups together, different names and
different files, is said of the whole rule set. -/
structure Group.IsSound (group : Group) : Prop where
  name_shown : group.name.isBlank = false
  files_ne_nil : group.files ≠ []
  literal_ne_nil : ∀ r ∈ group.replacements, r.literal ≠ []

namespace RuleSet

variable {rules : RuleSet} {names : List Text} {owners owners' : Owners} {groups : List Group}
  {group : Text} {file : Text} {files : List Text}

/-- A file has no owner yet exactly when it is not among those seen. -/
theorem lookup_eq_none_iff_not_mem : owners.lookup file = none ↔ file ∉ owners.map (·.1) := by
  rw [List.lookup_eq_none_iff, List.mem_map]
  constructor
  · rintro h ⟨p, hp, rfl⟩
    simpa using h p hp
  · intro h p hp
    by_cases heq : file = p.1
    · exact absurd ⟨p, hp, heq.symm⟩ h
    · simpa using heq

/-- The files of a group can be added to those seen before when none is among them and none is
listed twice. -/
theorem claimFiles_eq_ok_iff : claimFiles group owners files = .ok owners' ↔
    files.Nodup ∧ (∀ file ∈ files, file ∉ owners.map (·.1)) ∧
      owners' = (files.map (·, group)).reverse ++ owners := by
  induction files generalizing owners with
  | nil =>
    unfold claimFiles
    simp [eq_comm]
  | cons file files ih =>
    unfold claimFiles
    cases hlookup : owners.lookup file with
    | some owner =>
      have hmem : ¬ file ∉ owners.map (·.1) := by
        rw [← lookup_eq_none_iff_not_mem, hlookup]
        exact nofun
      exact ⟨nofun, fun h => absurd (h.2.1 file List.mem_cons_self) hmem⟩
    | none =>
      have hmem : file ∉ owners.map (·.1) := lookup_eq_none_iff_not_mem.mp hlookup
      -- the first file is among those seen when the others are examined
      have hclaimed : (∀ f ∈ files, f ∉ ((file, group) :: owners).map (·.1)) ↔
          file ∉ files ∧ ∀ f ∈ files, f ∉ owners.map (·.1) := by
        simp only [List.map_cons, List.mem_cons, not_or]
        constructor
        · exact fun h => ⟨fun hfile => (h file hfile).1 rfl, fun f hf => (h f hf).2⟩
        · rintro ⟨hfile, h⟩ f hf
          exact ⟨fun heq => hfile (heq ▸ hf), h f hf⟩
      dsimp only
      rw [ih, hclaimed, List.nodup_cons, List.map_cons, List.reverse_cons, List.append_assoc,
        List.singleton_append, List.forall_mem_cons]
      constructor
      · rintro ⟨hnodup, ⟨hfile, h⟩, rfl⟩
        exact ⟨⟨hfile, hnodup⟩, ⟨hmem, h⟩, rfl⟩
      · rintro ⟨⟨hfile, hnodup⟩, ⟨-, h⟩, rfl⟩
        exact ⟨hnodup, ⟨hfile, h⟩, rfl⟩

/-- A group is accepted when it is sound, and its name and its files were not seen before. -/
theorem validateGroups_cons_eq_ok_iff {group : Group} :
    validateGroups names owners (group :: groups) = .ok () ↔
      group.IsSound ∧ group.name ∉ names ∧
        ∃ owners', claimFiles group.name owners group.files = .ok owners' ∧
          validateGroups (group.name :: names) owners' groups = .ok () := by
  rw [validateGroups]
  constructor
  · intro h
    split_ifs at h with hblank hname hempty hliteral
    have hsound : group.IsSound :=
      ⟨eq_false_of_ne_true hblank, fun hnil => hempty (List.isEmpty_iff.mpr hnil), fun r hr hnil =>
        hliteral (List.any_eq_true.mpr ⟨r, hr, List.isEmpty_iff.mpr hnil⟩)⟩
    cases hclaim : claimFiles group.name owners group.files with
    | error fault =>
      rw [hclaim] at h
      cases h
    | ok owners' =>
      rw [hclaim] at h
      exact ⟨hsound, fun hmem => hname (List.contains_iff_mem.mpr hmem), owners', rfl, h⟩
  · rintro ⟨hsound, hname, owners', hclaim, h⟩
    have hliteral : ¬ group.replacements.any (·.literal.isEmpty) = true := by
      rw [List.any_eq_true]
      rintro ⟨r, hr, hnil⟩
      exact hsound.literal_ne_nil r hr (List.isEmpty_iff.mp hnil)
    rw [if_neg (ne_true_of_eq_false hsound.name_shown),
      if_neg fun hmem => hname (List.contains_iff_mem.mp hmem),
      if_neg fun hnil => hsound.files_ne_nil (List.isEmpty_iff.mp hnil), if_neg hliteral, hclaim]
    exact h

/-- Groups are accepted after others when each is sound, no name and no file occurs twice, and
none was seen before. -/
theorem validateGroups_eq_ok_iff : validateGroups names owners groups = .ok () ↔
    (∀ group ∈ groups, group.IsSound) ∧
      ((groups.map (·.name)).Nodup ∧ ∀ name ∈ groups.map (·.name), name ∉ names) ∧
      (groups.flatMap (·.files)).Nodup ∧
        ∀ file ∈ groups.flatMap (·.files), file ∉ owners.map (·.1) := by
  induction groups generalizing names owners with
  | nil =>
    unfold validateGroups
    simp
  | cons group groups ih =>
    rw [validateGroups_cons_eq_ok_iff, List.forall_mem_cons, List.map_cons, List.nodup_cons,
      List.forall_mem_cons, List.flatMap_cons, List.nodup_append, List.forall_mem_append]
    constructor
    · rintro ⟨hsound, hname, owners', hclaim, h⟩
      obtain ⟨hnodup, hnew, rfl⟩ := claimFiles_eq_ok_iff.mp hclaim
      obtain ⟨hsounds, ⟨hnames, hnew'⟩, hnodup', hfiles⟩ := ih.mp h
      refine ⟨⟨hsound, hsounds⟩, ⟨⟨?_, hnames⟩, hname, ?_⟩, ⟨hnodup, hnodup', ?_⟩, hnew, ?_⟩
      · exact fun hmem => hnew' _ hmem List.mem_cons_self
      · exact fun name hmem h => hnew' name hmem (List.mem_cons_of_mem _ h)
      · rintro file hfile _ hfile' rfl
        exact hfiles file hfile' (by simp [hfile])
      · exact fun file hfile h => hfiles file hfile (by simp_all)
    · rintro ⟨⟨hsound, hsounds⟩, ⟨⟨hhead, hnames⟩, hname, hnew'⟩, ⟨hnodup, hnodup', hapart⟩, hnew,
        hfiles⟩
      refine ⟨hsound, hname, _, claimFiles_eq_ok_iff.mpr ⟨hnodup, hnew, rfl⟩, ih.mpr
        ⟨hsounds, ⟨hnames, fun name hmem h => ?_⟩, hnodup', fun file hfile h => ?_⟩⟩
      · rcases List.mem_cons.mp h with rfl | h
        · exact hhead hmem
        · exact hnew' name hmem h
      · rw [List.map_append, List.mem_append] at h
        rcases h with h | h
        · exact hapart file (by simpa using h) file hfile rfl
        · exact hfiles file hfile h

/-- A rule set is accepted exactly when it has a group, each is sound, and no name and no file
occurs twice. -/
theorem validate_eq_ok_iff : rules.validate = .ok () ↔
    rules.groups ≠ [] ∧ (∀ group ∈ rules.groups, group.IsSound) ∧
      (rules.groups.map (·.name)).Nodup ∧ (rules.groups.flatMap (·.files)).Nodup := by
  unfold validate
  split
  · next h => exact ⟨nofun, fun hne => absurd (List.isEmpty_iff.mp h) hne.1⟩
  · next h =>
    rw [validateGroups_eq_ok_iff]
    simp [← List.isEmpty_iff, h]

/-! ### Owning files -/

/-- In an accepted rule set the group that owns a file is the one that lists it. -/
theorem groupFor_eq_some_iff (hvalid : rules.validate = .ok ()) {group : Group} :
    rules.groupFor file = some group ↔ group ∈ rules.groups ∧ file ∈ group.files := by
  constructor
  · intro h
    have hlists := List.find?_some h
    exact ⟨List.mem_of_find?_eq_some h, List.contains_iff_mem.mp hlists⟩
  · rintro ⟨hgroup, hfile⟩
    obtain ⟨before, after, hsplit⟩ := List.append_of_mem hgroup
    have hnodup := (validate_eq_ok_iff.mp hvalid).2.2.2
    rw [hsplit, List.flatMap_append, List.flatMap_cons, List.nodup_append] at hnodup
    rw [groupFor, List.find?_eq_some_iff_append]
    refine ⟨List.contains_iff_mem.mpr hfile, before, after, hsplit, fun earlier hearlier => ?_⟩
    -- an earlier group that lists the file, too, would repeat it
    rw [Bool.not_eq_true', ← Bool.not_eq_true, List.contains_iff_mem]
    intro hfile'
    exact hnodup.2.2 file (List.mem_flatMap_of_mem hearlier hfile') file
      (List.mem_append_left _ hfile) rfl

/-! ### Choosing groups -/

variable {only : List Text} {name : Text}

/-- A group has the name. -/
def Knows (rules : RuleSet) (name : Text) : Prop := ∃ group ∈ rules.groups, group.name = name

/-- The groups with one of the given names, or all groups when no name is given. -/
def chosen (rules : RuleSet) (only : List Text) : List Group :=
  rules.groups.filter fun group => only.isEmpty || only.contains group.name

/-- A name is found among the groups exactly when the rules know it. -/
theorem any_name_iff : rules.groups.any (·.name == name) = true ↔ rules.Knows name := by
  rw [List.any_eq_true]
  simp only [beq_iff_eq]
  rfl

/-- A group is chosen when it is asked for by name, or nothing is asked for. -/
theorem mem_chosen_iff {group : Group} :
    group ∈ rules.chosen only ↔ group ∈ rules.groups ∧ (only = [] ∨ group.name ∈ only) := by
  rw [chosen, List.mem_filter, Bool.or_eq_true, List.isEmpty_iff, List.contains_iff_mem]

/-- Groups can be chosen by names that are all known.  They are chosen in declared order, whatever
the order of the names. -/
theorem select_eq_ok_iff : rules.select only = .ok groups ↔
    (∀ name ∈ only, rules.Knows name) ∧ groups = rules.chosen only := by
  unfold select
  split
  · next unknown hfind =>
    have hunknown := List.find?_some hfind
    rw [Bool.not_eq_true', ← Bool.not_eq_true, any_name_iff] at hunknown
    exact ⟨nofun, fun h => absurd (h.1 unknown (List.mem_of_find?_eq_some hfind)) hunknown⟩
  · next hfind =>
    simp only [List.find?_eq_none, Bool.not_eq_true', Bool.not_eq_false, any_name_iff] at hfind
    constructor
    · rintro ⟨⟩
      exact ⟨hfind, rfl⟩
    · rintro ⟨-, rfl⟩
      rfl

/-- A name that cannot be chosen is the first that is not known. -/
theorem select_eq_error_iff : rules.select only = .error name ↔
    ¬ rules.Knows name ∧ ∃ before after, only = before ++ name :: after ∧
      ∀ known ∈ before, rules.Knows known := by
  have hfind : rules.select only = .error name ↔
      only.find? (fun name => !rules.groups.any (·.name == name)) = some name := by
    unfold select
    split
    · next unknown hfind => simp [hfind]
    · next hfind => simp [hfind]
  rw [hfind, List.find?_eq_some_iff_append]
  simp only [Bool.not_not, Bool.not_eq_true', ← Bool.not_eq_true, any_name_iff]

/-- No chosen file is listed twice, as no file of a valid rule set is. -/
theorem nodup_files_chosen (hvalid : rules.validate = .ok ()) (only : List Text) :
    ((rules.chosen only).flatMap (·.files)).Nodup :=
  (List.filter_sublist.flatMap _).nodup (validate_eq_ok_iff.mp hvalid).2.2.2

end RuleSet

end CommandTemplates
