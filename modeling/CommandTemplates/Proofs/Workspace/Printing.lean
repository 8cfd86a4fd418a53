import CommandTemplates.Proofs.Report.Lines
import CommandTemplates.Proofs.Workspace.Composition

/-!
# Printing what a run did

A report is a list of files, and the name of a group is printed where a file has another group than
the file before it.  Each group is named once nevertheless, right before its own files: a run visits
the files of a group together, no group of an accepted rule set is without files, and no two have
the same name.  What the lines say is given word by word.

## Main Definitions

* `FileReport.IsOf` — a report is one of a listed file
* `ApplyReport.IsOn` — a report has every file of some groups, in order
* `ApplyReport.filesOf` — the files of a group in a report
* `FileReport.items` — what is printed of a file
* `ApplyReport.closing` — the closing line with its numbers

## Main Results

* `ApplyReport.itemsAfter_flatMap` — files that stand together by their groups are printed group by
  group
* `ApplyReport.flatMap_filter_group` — the files that a run visits stand together by their groups
* `ApplyReport.IsOn.items_eq` — what is printed of a report
* `ApplyReport.coloured_printed` — a report says the same with colours and without
* `Workspace.isOn_of_run_apply` — the report of a run is one on the chosen groups
* `Workspace.apply_printed` — what is printed of a run
-/

namespace CommandTemplates

open Report (Coloured Style)

namespace ReportItem

/-- The name in a header. -/
def group? : ReportItem → Option Text
  | group name => some name
  | _ => none

/-- The file that a line is printed of. -/
def file? : ReportItem → Option FileReport
  | file f => some f
  | _ => none

end ReportItem

namespace FileReport

variable {verbose : Bool}

/-- What is printed of a file: its line, and in a verbose report the lines of its replacements. -/
def items (f : FileReport) (verbose : Bool) : List ReportItem :=
  .file f :: if verbose then f.replacements.map .replacement else []

theorem filterMap_file?_items (f : FileReport) : (f.items verbose).filterMap (·.file?) = [f] := by
  cases verbose <;> simp [items, ReportItem.file?]

theorem filterMap_group?_items (f : FileReport) : (f.items verbose).filterMap (·.group?) = [] := by
  cases verbose <;> simp [items, ReportItem.group?]

/-- A report is one of a listed file.  Its replacements are some of the group's, in order. -/
structure IsOf (f : FileReport) (l : Group × Text) : Prop where
  file_eq : f.file = l.2
  group_eq : f.group = l.1.name
  replacements_sublist : (f.replacements.map (·.replacement)).Sublist l.1.replacements

end FileReport

namespace ApplyReport

variable {report : ApplyReport} {verbose : Bool} {previous : Option Text} {name : Text}
  {group : Group} {groups : List Group} {own rest reports : List FileReport}

/-! ### Headers -/

/-- A file is printed below the name of its group, unless the file before it is of that group. -/
theorem itemsAfter_cons (f : FileReport) :
    itemsAfter verbose previous (f :: rest) =
      (if previous = some f.group then [] else [.group f.group]) ++ f.items verbose ++
        itemsAfter verbose (some f.group) rest := by
  rw [itemsAfter, FileReport.items, List.append_assoc _ [_], List.singleton_append]

/-- Below the name of their group, files need no other header. -/
theorem itemsAfter_append (hown : ∀ f ∈ own, f.group = name) :
    itemsAfter verbose (some name) (own ++ rest) =
      own.flatMap (·.items verbose) ++ itemsAfter verbose (some name) rest := by
  induction own with
  | nil => rfl
  | cons f own ih =>
    rw [List.forall_mem_cons] at hown
    rw [List.cons_append, itemsAfter_cons, hown.1, if_pos rfl, List.nil_append, ih hown.2,
      List.flatMap_cons, List.append_assoc]

/-- Behind a file of another group, files are printed below the name of theirs. -/
theorem itemsAfter_block (hne : own ≠ []) (hown : ∀ f ∈ own, f.group = name)
    (hprevious : previous ≠ some name) :
    itemsAfter verbose previous (own ++ rest) =
      .group name :: own.flatMap (·.items verbose) ++ itemsAfter verbose (some name) rest := by
  cases own with
  | nil => exact absurd rfl hne
  | cons f own =>
    rw [List.forall_mem_cons] at hown
    rw [List.cons_append, itemsAfter_cons, hown.1, if_neg hprevious, itemsAfter_append hown.2,
      List.flatMap_cons, List.singleton_append, List.cons_append, List.cons_append,
      List.append_assoc]

/-- Files that stand together by their groups are printed group by group. -/
theorem itemsAfter_flatMap {block : Group → List FileReport}
    (hnames : (groups.map (·.name)).Nodup)
    (hprevious : ∀ group ∈ groups, previous ≠ some group.name)
    (hne : ∀ group ∈ groups, block group ≠ [])
    (hblock : ∀ group ∈ groups, ∀ f ∈ block group, f.group = group.name) :
    itemsAfter verbose previous (groups.flatMap block) =
      groups.flatMap fun group => .group group.name :: (block group).flatMap (·.items verbose) := by
  induction groups generalizing previous with
  | nil => rfl
  | cons group groups ih =>
    rw [List.map_cons, List.nodup_cons] at hnames
    rw [List.forall_mem_cons] at hprevious hne hblock
    -- the groups after this one have other names
    have hnext : ∀ other ∈ groups, some group.name ≠ some other.name := fun other hother heq =>
      hnames.1 (List.mem_map.mpr ⟨other, hother, (Option.some.inj heq).symm⟩)
    rw [List.flatMap_cons, itemsAfter_block hne.1 hblock.1 hprevious.1,
      ih hnames.2 hnext hne.2 hblock.2, List.flatMap_cons]

/-! ### The files of a group -/

/-- The files of a group in a report. -/
def filesOf (report : ApplyReport) (group : Group) : List FileReport :=
  report.files.filter (·.group == group.name)

/-- No reports are those of a group that none of them names. -/
theorem filter_group_of_ne (h : ∀ f ∈ reports, f.group ≠ name) :
    reports.filter (·.group == name) = [] :=
  List.filter_eq_nil_iff.mpr fun f hf hname => h f hf (beq_iff_eq.mp hname)

/-- Every report of a run names a group that was chosen. -/
theorem group_mem_of_map_eq (h : reports.map (·.group) = (Group.listing groups).map (·.1.name)) :
    ∀ f ∈ reports, f.group ∈ groups.map (·.name) := by
  intro f hf
  have hmem : f.group ∈ reports.map (·.group) := List.mem_map_of_mem hf
  rw [h] at hmem
  obtain ⟨l, hl, hname⟩ := List.mem_map.mp hmem
  obtain ⟨group, hgroup, hl⟩ := List.mem_flatMap.mp hl
  obtain ⟨file, -, rfl⟩ := List.mem_map.mp hl
  exact List.mem_map.mpr ⟨group, hgroup, hname⟩

/-- The files that a run visits stand together by their groups. -/
theorem flatMap_filter_group (hnames : (groups.map (·.name)).Nodup)
    (h : reports.map (·.group) = (Group.listing groups).map (·.1.name)) :
    groups.flatMap (fun group => reports.filter (·.group == group.name)) = reports := by
  induction groups generalizing reports with
  | nil => exact (List.map_eq_nil_iff.mp h).symm
  | cons group groups ih =>
    rw [List.map_cons, List.nodup_cons] at hnames
    rw [← List.singleton_append, Workspace.listing_append, List.map_append,
      List.map_eq_append_iff] at h
    obtain ⟨own, others, rfl, hown, hothers⟩ := h
    have hgroup : ∀ f ∈ own, f.group = group.name := fun f hf =>
      List.mem_singleton.mp (group_mem_of_map_eq hown f hf)
    have hhead : (own ++ others).filter (·.group == group.name) = own := by
      have hne : ∀ f ∈ others, f.group ≠ group.name := fun f hf heq =>
        hnames.1 (heq ▸ group_mem_of_map_eq hothers f hf)
      rw [List.filter_append, filter_group_of_ne hne, List.append_nil]
      exact List.filter_eq_self.mpr fun f hf => beq_iff_eq.mpr (hgroup f hf)
    have htail : ∀ other ∈ groups, (own ++ others).filter (·.group == other.name) =
        others.filter (·.group == other.name) := by
      intro other hother
      have hne : ∀ f ∈ own, f.group ≠ other.name := fun f hf heq =>
        hnames.1 (List.mem_map.mpr ⟨other, hother, heq.symm.trans (hgroup f hf)⟩)
      rw [List.filter_append, filter_group_of_ne hne, List.nil_append]
    rw [List.flatMap_cons, hhead, List.flatMap_congr htail, ih hnames.2 hothers]

/-! ### Reports on groups -/

/-- A report on groups has every file that they list, in order.  No group is without files, and no
two have the same name. -/
structure IsOn (report : ApplyReport) (groups : List Group) : Prop where
  nodup : (groups.map (·.name)).Nodup
  files_ne_nil : ∀ group ∈ groups, group.files ≠ []
  isOf : List.Forall₂ (fun l f => f.IsOf l) (Group.listing groups) report.files

namespace IsOn

/-- The files of a group are those that it lists, in order. -/
theorem forall₂_filesOf (h : report.IsOn groups) (hgroup : group ∈ groups) :
    List.Forall₂ (fun file f => f.IsOf (group, file)) group.files (report.filesOf group) := by
  have hfiltered : List.Forall₂ (fun l f => FileReport.IsOf f l)
      ((Group.listing groups).filter (·.1.name == group.name)) (report.filesOf group) := by
    refine List.rel_filter (fun l f hf => ?_) h.isOf
    dsimp only
    rw [hf.group_eq]
  rw [Workspace.filter_listing_of_mem h.nodup hgroup, Group.listing, List.flatMap_singleton,
    List.forall₂_map_left_iff] at hfiltered
  exact hfiltered

/-- A group that was chosen has reports, since a group lists a file. -/
theorem filesOf_ne_nil (h : report.IsOn groups) (hgroup : group ∈ groups) :
    report.filesOf group ≠ [] := by
  intro hnil
  have hown := h.forall₂_filesOf hgroup
  rw [hnil, List.forall₂_nil_right_iff] at hown
  exact h.files_ne_nil group hgroup hown

/-- The reports of the groups, one group after the other, are all reports in order. -/
theorem flatMap_filesOf (h : report.IsOn groups) :
    groups.flatMap report.filesOf = report.files := by
  refine flatMap_filter_group h.nodup ?_
  rw [← List.forall₂_eq_eq_eq, List.forall₂_map_left_iff, List.forall₂_map_right_iff]
  exact h.isOf.flip.imp fun _ _ hf => hf.group_eq

/-- A report on groups is printed group by group. -/
theorem items_eq (h : report.IsOn groups) : report.items verbose = groups.flatMap fun group =>
    .group group.name :: (report.filesOf group).flatMap (·.items verbose) := by
  rw [items, ← h.flatMap_filesOf]
  exact itemsAfter_flatMap h.nodup (fun _ _ => nofun) (fun _ => h.filesOf_ne_nil) fun _ _ _ hf =>
    beq_iff_eq.mp (List.mem_filter.mp hf).2

/-- The lines of a report on groups without colours, before the summary. -/
theorem map_itemLine_items (h : report.IsOn groups) :
    (report.items verbose).map (report.itemLine false) = groups.flatMap fun group =>
      group.name :: (report.filesOf group).flatMap fun f =>
        f.plainLine report.dryRun ::
          if verbose then f.replacements.map (·.plainLine) else [] := by
  rw [h.items_eq, List.map_flatMap]
  refine List.flatMap_congr fun group _ => ?_
  rw [List.map_cons, List.map_flatMap]
  congr 1
  refine List.flatMap_congr fun f _ => ?_
  rw [FileReport.items, List.map_cons, itemLine, f.line_false]
  cases verbose with
  | false => rfl
  | true =>
    rw [if_pos rfl, if_pos rfl, List.map_map]
    rfl

end IsOn

/-! ### Items of one kind -/

/-- Every file of a report is printed once, in order. -/
theorem filterMap_file?_itemsAfter :
    (itemsAfter verbose previous reports).filterMap (·.file?) = reports := by
  induction reports generalizing previous with
  | nil => rfl
  | cons f reports ih =>
    rw [itemsAfter_cons, List.filterMap_append, List.filterMap_append, f.filterMap_file?_items, ih]
    split <;> rfl

/-- The headers are the names of the groups, in order. -/
theorem IsOn.filterMap_group?_items (h : report.IsOn groups) :
    (report.items verbose).filterMap (·.group?) = groups.map (·.name) := by
  rw [h.items_eq, List.filterMap_flatMap, List.map_eq_flatMap]
  refine List.flatMap_congr fun group _ => ?_
  have hnone : ((report.filesOf group).flatMap (·.items verbose)).filterMap (·.group?) = [] := by
    rw [List.filterMap_flatMap, List.flatMap_eq_nil_iff]
    exact fun f _ => f.filterMap_group?_items
  rw [List.filterMap_cons, hnone]
  rfl

/-- Every file has one of the three statuses. -/
theorem countP_status (reports : List FileReport) :
    reports.countP (·.status = .updated) + reports.countP (·.status = .unchanged) +
      reports.countP (·.status = .skipped) = reports.length := by
  induction reports with
  | nil => rfl
  | cons f reports ih =>
    simp only [List.countP_cons, List.length_cons]
    cases f.status <;> simp <;> omega

/-- The closing line with these numbers in it. -/
def closing (dryRun : Bool) (updated unchanged skipped : Nat) : Text :=
  (if dryRun then "[DRY RUN] Would update ".toList else "Updated ".toList) ++
    Text.ofNat updated ++ " file(s), ".toList ++ Text.ofNat unchanged ++ " unchanged, ".toList ++
    Text.ofNat skipped ++ " skipped".toList

/-- The line at the end counts the files of each status. -/
theorem summary_eq (report : ApplyReport) : report.summary =
    closing report.dryRun (report.count .updated) (report.count .unchanged)
      (report.count .skipped) := by
  rw [summary, closing, dryRunMark]
  cases report.dryRun <;> rfl

/-! ### Colours -/

/-- With colour, every line has the same text to show as without. -/
theorem coloured_itemLine (report : ApplyReport) (color : Bool) (item : ReportItem) :
    Coloured (report.itemLine false item) (report.itemLine color item) := by
  cases item with
  | group name => exact Style.coloured_apply .boldCyan color name
  | file f =>
    rw [itemLine, f.line_false]
    exact f.coloured_line color report.dryRun
  | replacement c => exact c.coloured_line color

/-- A report says the same with colours and without. -/
theorem coloured_printed (report : ApplyReport) (color verbose : Bool) :
    Coloured (report.printed false verbose) (report.printed color verbose) := by
  rw [printed, printed, lines, lines, List.flatMap_append, List.flatMap_append, List.flatMap_map,
    List.flatMap_map]
  refine (Coloured.flatMap fun item _ => ?_).append (.refl _)
  exact (report.coloured_itemLine color item).append (.refl _)

end ApplyReport

/-! ### Runs -/

namespace Workspace

section Visits

variable {w : Workspace} {dryRun : Bool} {group : Group} {file : Text} {t t' : FileTree}
  {report : FileReport} {listed : List (Group × Text)} {reports : List FileReport}
  {backups : List Backup}

/-- A visit reports the file that is visited. -/
theorem Visit.isOf (h : Visit w dryRun group file t report backups t') :
    report.IsOf (group, file) := by
  cases h with
  | missing => exact ⟨rfl, rfl, List.nil_sublist _⟩
  | kept => exact ⟨rfl, rfl, Replacement.map_applyAll_sublist _ _⟩
  | written => exact ⟨rfl, rfl, Replacement.map_applyAll_sublist _ _⟩

/-- The reports of a run are those of the listed files, in order. -/
theorem Visits.isOf (h : Visits w dryRun t listed reports backups t') :
    List.Forall₂ (fun l f => f.IsOf l) listed reports := by
  induction h with
  | nil => exact .nil
  | cons hvisit _ ih => exact .cons hvisit.isOf ih

end Visits

section Runs

variable {σ : Type} [Host (StateM σ)] [FileHost σ] {w : Workspace} {only : List Text}
  {dryRun : Bool} {s s' : σ} {report : ApplyReport}

/-- The report of a run is one on the chosen groups. -/
theorem isOn_of_run_apply (hvalid : w.rules.validate = .ok ())
    (h : (w.apply only dryRun : ExceptT Failure (StateM σ) ApplyReport).run.run s =
      (.ok report, s')) :
    w.rules.select only = .ok (w.rules.chosen only) ∧ report.dryRun = dryRun ∧
      report.IsOn (w.rules.chosen only) := by
  obtain ⟨groups, reports, tx, s₁, hselect, rfl, hrun, -⟩ := run_apply_eq_ok h
  obtain ⟨-, rfl⟩ := RuleSet.select_eq_ok_iff.mp hselect
  obtain ⟨backups, -, hvisits⟩ := visits_of_generalizeFiles hrun
  obtain ⟨-, hsound, hnames, -⟩ := RuleSet.validate_eq_ok_iff.mp hvalid
  exact ⟨hselect, rfl, (List.filter_sublist.map Group.name).nodup hnames, fun group hgroup =>
    (hsound group (RuleSet.mem_chosen_iff.mp hgroup).1).files_ne_nil, hvisits.isOf⟩

/-- What is printed of a run: the name of every chosen group, in order, each right before the lines
of the files that the group lists, in order, each in a verbose report right before the lines of its
replacements, in order; then an empty line and the closing line.  Its numbers are those of the files
printed with each status, and leave no file out.  With colours, nothing but colour codes is put
in. -/
theorem apply_printed (w : Workspace) (only : List Text) (dryRun : Bool) (s s' : σ)
    (report : ApplyReport) (hvalid : w.rules.validate = .ok ())
    (h : (w.apply only dryRun : ExceptT Failure (StateM σ) ApplyReport).run.run s =
      (.ok report, s')) (color verbose : Bool) :
    let groups := w.rules.chosen only
    let items := report.items verbose
    let shown := items.filterMap (·.file?)
    let number (status : FileStatus) : Nat := shown.countP (·.status = status)
    (w.rules.select only = .ok groups ∧ (groups.map (·.name)).Nodup) ∧
      (∀ group ∈ groups, List.Forall₂ (fun file f => f.IsOf (group, file)) group.files
        (report.filesOf group)) ∧
      (items = groups.flatMap (fun group =>
          .group group.name :: (report.filesOf group).flatMap (·.items verbose)) ∧
        items.filterMap (·.group?) = groups.map (·.name) ∧ shown = report.files) ∧
      report.printed false verbose =
        (groups.flatMap (fun group =>
          group.name :: (report.filesOf group).flatMap fun f =>
            f.plainLine dryRun :: if verbose then f.replacements.map (·.plainLine) else []) ++
          [[], ApplyReport.closing dryRun (number .updated) (number .unchanged)
            (number .skipped)]).flatMap (· ++ ['\n']) ∧
      Coloured (report.printed false verbose) (report.printed color verbose) ∧
      number .updated + number .unchanged + number .skipped = shown.length := by
  intro groups items shown number
  obtain ⟨hselect, rfl, hon⟩ := isOn_of_run_apply hvalid h
  have hshown : shown = report.files := ApplyReport.filterMap_file?_itemsAfter
  have hsummary : report.summary = ApplyReport.closing report.dryRun (number .updated)
      (number .unchanged) (number .skipped) := by
    dsimp only [number]
    rw [hshown]
    exact report.summary_eq
  refine ⟨⟨hselect, hon.nodup⟩, fun group => hon.forall₂_filesOf,
    ⟨hon.items_eq, hon.filterMap_group?_items, hshown⟩, ?_,
    report.coloured_printed color verbose, ApplyReport.countP_status shown⟩
  rw [← hsummary, ApplyReport.printed, ApplyReport.lines, hon.map_itemLine_items]

/-- A verbose dry run of two groups, one of two files and one of them missing. -/
theorem apply_printed_pairing :
    let s := Machine.ofFiles (doublingFiles (.file (.text ['b']) 0o600) (.link ['x']))
    let done := (pairing.apply [['h'], ['g']] true :
      ExceptT Failure (StateM Machine) ApplyReport).run.run s
    let first : FileReport :=
      ⟨"a.md".toList, ['g'], .updated, false, false, [⟨⟨['a'], ['b']⟩, 1⟩]⟩
    let second : FileReport :=
      ⟨"b.md".toList, ['h'], .updated, false, false, [⟨⟨['b'], ['a']⟩, 1⟩]⟩
    let third : FileReport := ⟨"c.md".toList, ['h'], .skipped, false, false, []⟩
    let report : ApplyReport := ⟨true, [first, second, third]⟩
    (pairing.rules.validate = .ok () ∧ done.1 = .ok report) ∧
      report.items true = [.group ['g'], .file first, .replacement ⟨⟨['a'], ['b']⟩, 1⟩,
        .group ['h'], .file second, .replacement ⟨⟨['b'], ['a']⟩, 1⟩, .file third] ∧
      report.printed false true =
        ["g".toList, "  a.md would update (1 replacement(s))".toList, "      a → b ×1".toList,
          "h".toList, "  b.md would update (1 replacement(s))".toList, "      b → a ×1".toList,
          "  c.md skipped (not found)".toList, [],
          "[DRY RUN] Would update 2 file(s), 0 unchanged, 1 skipped".toList].flatMap
            (· ++ ['\n']) ∧
      Coloured (report.printed false true) (report.printed true true) := by
  intro s done first second third report
  have hvalid : pairing.rules.validate = .ok () := by decide +kernel
  have hreport : done.1 = .ok report := by decide +kernel
  obtain ⟨-, -, ⟨hitems, -, hshown⟩, hprinted, hcoloured, -⟩ :=
    apply_printed pairing [['h'], ['g']] true s done.2 report hvalid (Prod.ext hreport rfl)
      true true
  refine ⟨⟨hvalid, hreport⟩, hitems.trans (by decide +kernel), ?_, hcoloured⟩
  rw [hprinted, hshown]
  decide +kernel

end Runs

end Workspace

end CommandTemplates
