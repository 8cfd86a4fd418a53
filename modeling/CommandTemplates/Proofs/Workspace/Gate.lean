import CommandTemplates.CommandLine.Run
import CommandTemplates.Proofs.Document.Replacement
import CommandTemplates.Proofs.Text.Counting
import CommandTemplates.Proofs.Workspace.Search
import CommandTemplates.Proofs.Workspace.Rollback

/-!
# A check of all Markdown files

A check of every Markdown file is what keeps a value from slipping through: it fails exactly when
some file below the directory still holds a literal of any group, or lacks what its own group asks
for, or when the walk through the directory has a fault.  A fault takes nothing away from what is
found elsewhere.

## Main Definitions

* `Workspace.HasMarkdown` — a Markdown file of a workspace, by its name and its text
* `Workspace.Hides` — a fault of the walk that hides a file
* `Workspace.Passes` — there is nothing to find in a file
* `Workspace.Lists` — what a finding lists of the literals in a file

## Main Results

* `Workspace.audit_isClean_iff_passes` — an audit is clean for the files that pass
* `Workspace.lists_audit` — it lists each literal once, in the order in which they are declared
* `Workspace.check_all_exact` — when the command fails, how it fails, and what it reports
-/

namespace CommandTemplates

open SteadyHost (sight)
open SearchingHost (tree)

namespace Workspace

/-! ### Files that pass -/

/-- A Markdown file below the directory of a workspace, by its name from there and its text. -/
def HasMarkdown (w : Workspace) (t : FileTree) (name text : Text) : Prop :=
  ∃ dir mode rel, t.find (.text w.commandsDir) = .ok (dir, .dir mode) ∧
    t.MarkdownBelow dir rel (.text text) ∧ name = FileTree.shownPlace rel

/-- Every Markdown file below the directory of a workspace can be read as text. -/
def MarkdownReadable (w : Workspace) (t : FileTree) : Prop :=
  ∀ dir mode rel content, t.find (.text w.commandsDir) = .ok (dir, .dir mode) →
    t.MarkdownBelow dir rel content →
      ∃ text, t.read (w.filePath (FileTree.shownPlace rel)) = .ok (.text text)

/-- A fault hides the file of a name. -/
def Hides (w : Workspace) (fault : WalkFault) (name : Text) : Prop :=
  ∃ rel, name = FileTree.shownPlace rel ∧ fault.Hides w.commandsDir rel

/-- There is nothing to find in a file: before its guide it has no literal of any group, and if a
group owns it, it has the notice or no place for one, and a guide unless the group wants none for
what the replacements make of it. -/
structure Passes (w : Workspace) (name text : Text) : Prop where
  literal : ∀ group ∈ w.rules.groups, ∀ r ∈ group.replacements,
    ¬ r.literal <:+: (Guide.split text).1
  notice : ∀ group, w.rules.groupFor name = some group →
    Notice.isPresent text = true ∨ Frontmatter.split text = none
  guide : ∀ group, w.rules.groupFor name = some group → Guide.isPresent text = true ∨
    group.wantsGuide (Replacement.applyAll (Guide.split text).1 group.replacements).1 = false

/-- All literals of all groups, as they are declared. -/
def declared (w : Workspace) : List Text := w.rules.groups.flatMap Group.literals

/-- What a finding lists of the literals in a text: each that occurs before the guide, in the order
in which they are declared first, and the greatest number of times that it occurs without
overlap. -/
structure Lists (w : Workspace) (text : Text) (literals : List (Text × Nat)) : Prop where
  ordered : literals.Pairwise fun l l' => w.declared.idxOf l.1 < w.declared.idxOf l'.1
  mem_iff : ∀ literal, literal ∈ literals.map (·.1) ↔
    literal ∈ w.declared ∧ literal <:+: (Guide.split text).1
  count_eq : ∀ l ∈ literals, l.2 = Text.occurrences l.1 (Guide.split text).1
  isGreatest : ∀ l ∈ literals, l.1 ≠ [] →
    IsGreatest {n | Text.Repeats l.1 n (Guide.split text).1} l.2

/-- What a check of all files finds in a file with this text. -/
def foundIn (w : Workspace) (name text : Text) : Option CheckEntry :=
  let group := w.rules.groupFor name
  let found := audit text w.rules.allLiterals group
  if found.isClean then none else some ⟨name, group.map (·.name), found⟩

section Files

variable {w : Workspace} {name text : Text} {e : CheckEntry}

/-- The literals that count are those of all groups. -/
theorem mem_allLiterals_iff {literal : Text} :
    literal ∈ w.rules.allLiterals ↔
      ∃ group ∈ w.rules.groups, ∃ r ∈ group.replacements, r.literal = literal := by
  rw [RuleSet.allLiterals, RuleSet.mem_firstOccurrences, List.mem_flatMap]
  simp only [Group.literals, List.mem_map]

/-- A text is clean of all literals when no replacement of any group applies to it. -/
theorem isClean_allLiterals_iff : (Guide.split text).1.IsClean w.rules.allLiterals ↔
    ∀ group ∈ w.rules.groups, ∀ r ∈ group.replacements, ¬ r.literal <:+: (Guide.split text).1 := by
  constructor
  · intro h group hgroup r hr
    exact h r.literal (mem_allLiterals_iff.mpr ⟨group, hgroup, r, hr, rfl⟩)
  · intro h literal hliteral
    obtain ⟨group, hgroup, r, hr, rfl⟩ := mem_allLiterals_iff.mp hliteral
    exact h group hgroup r hr

/-- An audit is clean for the files that pass. -/
theorem audit_isClean_iff_passes :
    (audit text w.rules.allLiterals (w.rules.groupFor name)).isClean = true ↔
      w.Passes name text := by
  have hliterals : (audit text w.rules.allLiterals (w.rules.groupFor name)).literals = [] ↔
      ∀ group ∈ w.rules.groups, ∀ r ∈ group.replacements,
        ¬ r.literal <:+: (Guide.split text).1 :=
    Text.countLiterals_eq_nil_iff.trans isClean_allLiterals_iff
  have hnotice : (audit text w.rules.allLiterals (w.rules.groupFor name)).missingNotice = false ↔
      ∀ group, w.rules.groupFor name = some group →
        Notice.isPresent text = true ∨ Frontmatter.split text = none := by
    cases w.rules.groupFor name with
    | none => exact iff_of_true rfl nofun
    | some group =>
      simp [audit, Notice.isMissing, or_iff_not_imp_left]
  have hguide : (audit text w.rules.allLiterals (w.rules.groupFor name)).missingGuide = false ↔
      ∀ group, w.rules.groupFor name = some group → Guide.isPresent text = true ∨
        group.wantsGuide (Replacement.applyAll (Guide.split text).1 group.replacements).1 =
          false := by
    cases w.rules.groupFor name with
    | none => exact iff_of_true rfl nofun
    | some group =>
      simp [audit, Group.lacksGuide, or_iff_not_imp_left]
  rw [Audit.isClean, Bool.and_eq_true, Bool.and_eq_true, List.isEmpty_iff, Bool.not_eq_true',
    Bool.not_eq_true', hliterals, hnotice, hguide]
  exact ⟨fun ⟨⟨h, h'⟩, h''⟩ => ⟨h, h', h''⟩, fun ⟨h, h', h''⟩ => ⟨⟨h, h'⟩, h''⟩⟩

/-- A text has no finding exactly when it passes. -/
theorem foundIn_eq_none_iff : w.foundIn name text = none ↔ w.Passes name text := by
  rw [foundIn, ← audit_isClean_iff_passes]
  split
  · next h => exact iff_of_true rfl h
  · next h => exact iff_of_false nofun h

/-- An audit lists each literal once, in the order in which they are declared. -/
theorem lists_audit {group : Option Group} :
    w.Lists text (audit text w.rules.allLiterals group).literals := by
  have heq : (audit text w.rules.allLiterals group).literals =
      (w.rules.allLiterals.filter ((Guide.split text).1.includes ·)).map fun literal =>
        (literal, Text.occurrences literal (Guide.split text).1) := Text.countLiterals_eq
  have hcount : ∀ l ∈ (audit text w.rules.allLiterals group).literals,
      l.2 = Text.occurrences l.1 (Guide.split text).1 := by
    intro l hl
    rw [heq] at hl
    obtain ⟨literal, -, rfl⟩ := List.mem_map.mp hl
    rfl
  refine ⟨?_, fun literal => ?_, hcount, fun l hl hne => ?_⟩
  · rw [heq, List.pairwise_map]
    exact (RuleSet.pairwise_firstOccurrences w.declared).filter _
  · rw [heq, List.map_map, Function.comp_def, List.map_id', List.mem_filter, RuleSet.allLiterals,
      RuleSet.mem_firstOccurrences, Text.includes_iff]
    exact Iff.rfl
  · rw [hcount l hl]
    exact Text.isGreatest_occurrences hne _

/-- The finding of a text that does not pass names its file and the group that owns it, and holds
what an audit for all literals says. -/
theorem mem_foundIn_iff : w.foundIn name text = some e ↔
    ¬ w.Passes name text ∧ e.file = name ∧ e.group = (w.rules.groupFor name).map (·.name) ∧
      e.audit = audit text w.rules.allLiterals (w.rules.groupFor name) := by
  rw [← audit_isClean_iff_passes, foundIn]
  split
  · next h => exact ⟨nofun, fun hno => absurd h hno.1⟩
  · next h =>
    constructor
    · rintro ⟨⟩
      exact ⟨h, rfl, rfl, rfl⟩
    · rintro ⟨-, hfile, hgroup, haudit⟩
      obtain ⟨file, group, found⟩ := e
      dsimp only at hfile hgroup haudit
      subst hfile hgroup haudit
      rfl

end Files

/-! ### Files that are found -/

section Found

variable {w : Workspace} {t : FileTree} {name text text' : Text} {steps : List WalkStep}

/-- A name stands for one Markdown file. -/
theorem HasMarkdown.unique (ht : t.Orderly) (h : w.HasMarkdown t name text)
    (h' : w.HasMarkdown t name text') : text = text' := by
  obtain ⟨dir, mode, rel, hdir, hfile, rfl⟩ := h
  obtain ⟨dir', mode', rel', hdir', hfile', hname⟩ := h'
  cases hdir.symm.trans hdir'
  obtain ⟨_, hentry⟩ := hfile.isFile
  obtain ⟨_, hentry'⟩ := hfile'.isFile
  obtain rfl := ht.shownPlace_inj hfile.ne_nil hfile'.ne_nil hentry hentry' hname
  cases hentry.symm.trans hentry'
  rfl

/-- What is read at the path of a Markdown file is its text. -/
theorem MarkdownReadable.read_eq (ht : t.Orderly) (h : w.MarkdownReadable t)
    (hmarkdown : w.HasMarkdown t name text) : t.read (w.filePath name) = .ok (.text text) := by
  obtain ⟨dir, mode, rel, hdir, hfile, rfl⟩ := hmarkdown
  obtain ⟨text', hread⟩ := h dir mode rel _ hdir hfile
  rw [hread, ht.read_below hdir hfile hread]

/-- It is enough to read the files below the directory. -/
theorem markdownReadable_of_below (text : Text) {dir : Place} {mode : Nat} (ht : t.Orderly)
    (hdir : t.find (.text w.commandsDir) = .ok (dir, .dir mode))
    (h : ∀ e ∈ t.below dir, e.2.isFile = true →
      t.read (w.filePath (FileTree.shownPlace e.1)) = .ok (.text text)) :
    w.MarkdownReadable t := by
  intro dir' mode' rel content hdir' hfile
  cases hdir.symm.trans hdir'
  obtain ⟨mode'', hentry⟩ := hfile.isFile
  have hplace := List.append_ne_nil_of_right_ne_nil dir hfile.ne_nil
  have hmem := FileTree.mem_below_iff.mpr
    ⟨hfile.ne_nil, (ht.entryAt?_eq_some_iff hplace).mp hentry⟩
  exact ⟨text, h (rel, .file content mode'') hmem rfl⟩

/-- The names that a search finds are those of the Markdown files that the walk comes to. -/
theorem mem_names_iff (ht : t.Orderly) (hroot : t.isFile (.text w.commandsDir) = false)
    (h : w.MarkdownReadable t) (hwalked : t.Walked w.commandsDir steps) :
    name ∈ (MarkdownFiles.ofSteps w.commandsDir steps).names ↔
      ⟨w.filePath name, true⟩ ∈ entriesOf steps ∧ ∃ text, w.HasMarkdown t name text := by
  rw [hwalked.mem_names_iff ht hroot]
  -- the path of an entry is put together from its names one by one, or from all of them at once
  have hpath : ∀ {dir rel : Place} {content : Octets}, t.MarkdownBelow dir rel content →
      Path.below (.text w.commandsDir) rel = w.filePath (FileTree.shownPlace rel) := by
    intro dir rel content hmarkdown
    obtain ⟨_, hentry⟩ := hmarkdown.isFile
    exact IsName.below_eq hmarkdown.ne_nil (ht.isName_of_below hentry) w.commandsDir
  constructor
  · rintro ⟨dir, mode, rel, content, hdir, hmarkdown, hmem, rfl⟩
    rw [hpath hmarkdown] at hmem
    obtain ⟨text, hread⟩ := h dir mode rel content hdir hmarkdown
    rw [← ht.read_below hdir hmarkdown hread] at hmarkdown
    exact ⟨hmem, text, dir, mode, rel, hdir, hmarkdown, rfl⟩
  · rintro ⟨hmem, text, dir, mode, rel, hdir, hmarkdown, rfl⟩
    rw [← hpath hmarkdown] at hmem
    exact ⟨dir, mode, rel, _, hdir, hmarkdown, hmem, rfl⟩

/-- The walk comes to every Markdown file that no fault hides. -/
theorem HasMarkdown.mem_entries_or_hidden (ht : t.Orderly)
    (hwalked : t.Walked w.commandsDir steps) (h : w.HasMarkdown t name text) :
    ⟨w.filePath name, true⟩ ∈ entriesOf steps ∨ ∃ fault ∈ faultsOf steps, w.Hides fault name := by
  obtain ⟨dir, mode, rel, hdir, hmarkdown, rfl⟩ := h
  obtain ⟨_, hentry⟩ := hmarkdown.isFile
  have hpath := IsName.below_eq hmarkdown.ne_nil (ht.isName_of_below hentry) w.commandsDir
  rcases hwalked.complete dir mode rel _ hdir hmarkdown.ne_nil hentry with
    hmem | ⟨fault, hfault, hhides⟩
  · rw [hpath] at hmem
    exact Or.inl hmem
  · exact Or.inr ⟨fault, hfault, rel, rfl, hhides⟩

end Found

/-! ### The run -/

section Run

variable {σ : Type} [Host (StateM σ)] [SearchingHost σ] {w : Workspace} {s : σ}

open Sight (Gives)

/-- What a check of all files finds in a file that can be read. -/
def seenFoundIn (w : Workspace) (v : Sight) (name : Text) : Option CheckEntry :=
  match v.readText (w.pathOf name) with
  | .ok text => w.foundIn name text
  | .error _ => none

/-- Auditing a file gives what is to be found in the text that can be seen of it. -/
theorem gives_auditFile_all (w : Workspace) (v : Sight) (name : Text) :
    v.Gives (σ := σ) (w.auditFile true name)
      (v.readText (w.pathOf name) >>= fun text => .ok (w.foundIn name text)) := by
  have hsteps := Gives.stepwise (σ := σ) v
  refine hsteps.bind (.readText v (w.pathOf name)) fun text _ => ?_
  have hliterals : w.literalsFor true (w.rules.groupFor name) = w.rules.allLiterals := by
    cases w.rules.groupFor name <;> rfl
  rw [hliterals]
  exact hsteps.pure _

omit [Host (StateM σ)] [SearchingHost σ] in
/-- A finding names the file that it is about. -/
theorem file_of_seenFoundIn {v : Sight} {name : Text} {e : CheckEntry}
    (h : w.seenFoundIn v name = some e) : e.file = name := by
  rw [seenFoundIn] at h
  split at h
  · exact (mem_foundIn_iff.mp h).2.1
  · cases h

/-- Files that can all be read are audited one after the other. -/
theorem mapM_foundIn {v : Sight} {names : List Text}
    (h : ∀ name ∈ names, ∃ text, v.readText (w.pathOf name) = .ok text) :
    (names.mapM fun name => v.readText (w.pathOf name) >>= fun text =>
      (.ok (w.foundIn name text) : Except Failure _)) = .ok (names.map (w.seenFoundIn v)) := by
  induction names with
  | nil => rfl
  | cons name names ih =>
    rw [List.forall_mem_cons] at h
    obtain ⟨⟨text, hread⟩, hrest⟩ := h
    rw [List.mapM_cons, ih hrest, List.map_cons, seenFoundIn, hread]
    rfl

/-- A check of all files audits what a search finds, file by file. -/
theorem exists_run_check_found {found : MarkdownFiles} {s' : σ}
    (hfound : (MarkdownFiles.search w.commandsDir :
      ExceptT Failure (StateM σ) MarkdownFiles).run.run s = (.ok found, s'))
    (hsight : sight s' = sight s) :
    ∃ s'', (w.check true : ExceptT Failure (StateM σ) CheckReport).run.run s =
      (do
        let entries ← found.names.mapM fun name =>
          (sight s).readText (w.pathOf name) >>= fun text => .ok (w.foundIn name text)
        return ⟨found.names.length, entries.filterMap id, found.unreadable⟩, s'') := by
  have hsteps := Gives.stepwise (σ := σ) (sight s)
  have haudits := hsteps.mapM (gives_auditFile_all w (sight s)) found.names
  obtain ⟨s₂, hentries, -⟩ := hsteps.bind haudits (fun entries _ => hsteps.pure
    (⟨found.names.length, entries.filterMap id, found.unreadable⟩ : CheckReport)) s' hsight
  refine ⟨s₂, ?_⟩
  rw [check, if_pos rfl, run_bind_of_ok hfound, pure_bind]
  exact hentries

/-- If all of it can be read, the check succeeds. -/
theorem exists_run_check_all {found : MarkdownFiles} {s' : σ}
    (hfound : (MarkdownFiles.search w.commandsDir :
      ExceptT Failure (StateM σ) MarkdownFiles).run.run s = (.ok found, s'))
    (hsight : sight s' = sight s)
    (hread : ∀ name ∈ found.names, ∃ text, (sight s).readText (w.pathOf name) = .ok text) :
    ∃ s'', (w.check true : ExceptT Failure (StateM σ) CheckReport).run.run s =
      (.ok ⟨found.names.length, found.names.filterMap (w.seenFoundIn (sight s)),
        found.unreadable⟩, s'') := by
  obtain ⟨s'', hrun⟩ := exists_run_check_found hfound hsight
  refine ⟨s'', ?_⟩
  rw [hrun, mapM_foundIn hread, ← Function.id_comp (w.seenFoundIn (sight s)), ← List.filterMap_map]
  rfl

/-- What is found in a Markdown file is what its text in the tree calls for: the file that is read
by its name is the one that the walk came to. -/
theorem seenFoundIn_eq {name text : Text} (ht : (tree s).Orderly)
    (hreadable : w.MarkdownReadable (tree s)) (h : w.HasMarkdown (tree s) name text) :
    (sight s).readText (w.pathOf name) = .ok text ∧
      w.seenFoundIn (sight s) name = w.foundIn name text := by
  have hread : (sight s).readText (w.pathOf name) = .ok text := by
    rw [Sight.readText, SearchingHost.read_eq,
      show (tree s).read (.text (w.pathOf name)) = _ from hreadable.read_eq ht h]
  refine ⟨hread, ?_⟩
  rw [seenFoundIn, hread]

/-- A finding is what is found in one of the Markdown files that the walk comes to. -/
theorem mem_findings_iff {steps : List WalkStep} {e : CheckEntry} (ht : (tree s).Orderly)
    (hroot : (tree s).isFile (.text w.commandsDir) = false)
    (hreadable : w.MarkdownReadable (tree s)) (hwalked : (tree s).Walked w.commandsDir steps) :
    e ∈ (MarkdownFiles.ofSteps w.commandsDir steps).names.filterMap (w.seenFoundIn (sight s)) ↔
      ∃ name, ⟨w.filePath name, true⟩ ∈ entriesOf steps ∧
        ∃ text, w.HasMarkdown (tree s) name text ∧ w.foundIn name text = some e := by
  rw [List.mem_filterMap]
  refine exists_congr fun name => ?_
  rw [mem_names_iff ht hroot hreadable hwalked, and_assoc]
  refine and_congr_right fun _ => ?_
  constructor
  · rintro ⟨⟨text, htext⟩, hsome⟩
    exact ⟨text, htext, (seenFoundIn_eq ht hreadable htext).2.symm.trans hsome⟩
  · rintro ⟨text, htext, hsome⟩
    exact ⟨⟨text, htext⟩, (seenFoundIn_eq ht hreadable htext).2.trans hsome⟩

/-- If the walk has no fault, nothing is found exactly when every Markdown file passes. -/
theorem findings_eq_nil_iff {steps : List WalkStep} (ht : (tree s).Orderly)
    (hroot : (tree s).isFile (.text w.commandsDir) = false)
    (hreadable : w.MarkdownReadable (tree s)) (hwalked : (tree s).Walked w.commandsDir steps)
    (hnone : faultsOf steps = []) :
    (MarkdownFiles.ofSteps w.commandsDir steps).names.filterMap (w.seenFoundIn (sight s)) = [] ↔
      ∀ name text, w.HasMarkdown (tree s) name text → w.Passes name text := by
  rw [List.eq_nil_iff_forall_not_mem]
  constructor
  · intro hno name text htext
    rw [← foundIn_eq_none_iff, Option.eq_none_iff_forall_ne_some]
    intro e he
    have hmem := (htext.mem_entries_or_hidden ht hwalked).resolve_right fun ⟨fault, hfault, _⟩ =>
      List.not_mem_nil (hnone ▸ hfault)
    exact hno e ((mem_findings_iff ht hroot hreadable hwalked).mpr ⟨name, hmem, text, htext, he⟩)
  · intro hall e he
    obtain ⟨name, -, text, htext, hsome⟩ :=
      (mem_findings_iff ht hroot hreadable hwalked).mp he
    rw [foundIn_eq_none_iff.mpr (hall name text htext)] at hsome
    cases hsome

omit [SearchingHost σ] in
/-- A command that checks all files passes when a check of the open workspace has nothing to report,
and fails with the number of problems if not. -/
theorem run_check_command (color verbose json : Bool) {workspace dir rules : Option Text}
    {report : CheckReport} {s₁ s₂ : σ}
    (hopen : (openAt workspace dir rules : ExceptT Failure (StateM σ) Workspace).run.run s =
      (.ok w, s₁))
    (hcheck : (w.check true : ExceptT Failure (StateM σ) CheckReport).run.run s₁ =
      (.ok report, s₂)) :
    let result := (((Command.check dir rules true json).run color verbose workspace :
      ExceptT Failure (StateM σ) Unit).run.run s).1
    (result = .ok () ↔ report.findings = [] ∧ report.unreadable = []) ∧
      (result ≠ .ok () →
        result = .error (.checkFailed (report.findings.length + report.unreadable.length)) ∧
          1 ≤ report.findings.length + report.unreadable.length) := by
  intro result
  have hclean : report.isClean = true ↔ report.findings = [] ∧ report.unreadable = [] := by
    rw [CheckReport.isClean, Bool.and_eq_true, List.isEmpty_iff, List.isEmpty_iff]
  have hresult : result =
      if report.isClean then .ok () else .error (.checkFailed report.problemCount) := by
    unfold result
    rw [Command.run, run_bind_of_ok hopen, run_bind_of_ok hcheck]
    generalize (if json = true then report.json.pretty ++ ['\n'] else report.printed color) = text
    rcases hprint : (Host.print text : StateM σ Unit).run s₂ with ⟨done, s₃⟩
    have hlift : (Host.print text : ExceptT Failure (StateM σ) Unit).run.run s₂ =
        (.ok done, s₃) := run_of_lift hprint
    rw [run_bind_of_ok hlift]
    cases report.isClean <;> rfl
  rw [← hclean, hresult]
  split
  · next h => exact ⟨iff_of_true rfl h, fun hno => absurd rfl hno⟩
  · next h =>
    refine ⟨iff_of_false nofun h, fun _ => ⟨rfl, Nat.one_le_iff_ne_zero.mpr fun hzero => h ?_⟩⟩
    rw [Nat.add_eq_zero_iff, List.length_eq_zero_iff, List.length_eq_zero_iff] at hzero
    exact hclean.mpr hzero

/-- A check of all files passes exactly when the walk has no fault and every Markdown file below the
directory passes.  If it does not, it fails with the number of files that are found and of faults.
Whatever the walk cannot come to, it finds exactly the files that do not pass among those that the
walk comes to, in the order of their names, and lists the literals in each; and the walk comes to
every Markdown file that no fault hides. -/
theorem check_all_exact (color verbose json : Bool) (workspace dir rules : Option Text)
    (w : Workspace) (s s₁ : σ)
    (hopen : (openAt workspace dir rules : ExceptT Failure (StateM σ) Workspace).run.run s =
      (.ok w, s₁))
    (ht : (tree s₁).Orderly) (hdir : (tree s₁).isFile (.text w.commandsDir) = false)
    (hreadable : w.MarkdownReadable (tree s₁)) :
    let result := (((Command.check dir rules true json).run color verbose workspace :
      ExceptT Failure (StateM σ) Unit).run.run s).1
    ∃ steps report,
      ((Host.walkDir w.commandsDir : StateM σ (List WalkStep)).run s₁).1 = steps ∧
      (tree s₁).Walked w.commandsDir steps ∧
      ((w.check true : ExceptT Failure (StateM σ) CheckReport).run.run s₁).1 = .ok report ∧
      (result = .ok () ↔ faultsOf steps = [] ∧
        ∀ name text, w.HasMarkdown (tree s₁) name text → w.Passes name text) ∧
      (result ≠ .ok () →
        result = .error (.checkFailed (report.findings.length + (faultsOf steps).length)) ∧
          1 ≤ report.findings.length + (faultsOf steps).length) ∧
      report.unreadable = (faultsOf steps).map (·.shownPath w.commandsDir) ∧
      report.findings.Pairwise (fun e e' => Text.before e.file e'.file = true) ∧
      (∀ name, name ∈ report.findings.map (·.file) ↔
        ⟨w.filePath name, true⟩ ∈ entriesOf steps ∧
          ∃ text, w.HasMarkdown (tree s₁) name text ∧ ¬ w.Passes name text) ∧
      (∀ name text, w.HasMarkdown (tree s₁) name text →
        ⟨w.filePath name, true⟩ ∈ entriesOf steps ∨
          ∃ fault ∈ faultsOf steps, w.Hides fault name) ∧
      ∀ e ∈ report.findings, e.group = (w.rules.groupFor e.file).map (·.name) ∧
        ∃ text, w.HasMarkdown (tree s₁) e.file text ∧ w.Lists text e.audit.literals := by
  intro result
  obtain ⟨steps, s₂, hwalk, hsight, hwalks⟩ := SearchingHost.run_walkDir w.commandsDir s₁
  have hwalked := hwalks ht
  obtain ⟨s₃, hsearch, hsight₃⟩ := MarkdownFiles.exists_run_search hwalk hsight
  have hread : ∀ name ∈ (MarkdownFiles.ofSteps w.commandsDir steps).names, ∃ text,
      (sight s₁).readText (w.pathOf name) = .ok text := by
    intro name hname
    obtain ⟨-, text, htext⟩ := (mem_names_iff ht hdir hreadable hwalked).mp hname
    exact ⟨text, (seenFoundIn_eq ht hreadable htext).1⟩
  obtain ⟨s₄, hcheck⟩ := exists_run_check_all hsearch hsight₃ hread
  have hmem := fun e => mem_findings_iff (e := e) ht hdir hreadable hwalked
  obtain ⟨hpasses, hfails⟩ := run_check_command color verbose json hopen hcheck
  have hunreadable : (MarkdownFiles.ofSteps w.commandsDir steps).unreadable =
      (faultsOf steps).map (·.shownPath w.commandsDir) := rfl
  rw [hunreadable, List.map_eq_nil_iff, and_comm] at hpasses
  rw [hunreadable, List.length_map] at hfails
  refine ⟨steps, _, congrArg Prod.fst hwalk, hwalked, congrArg Prod.fst hcheck, ?_, hfails, rfl,
    ?_, ?_, fun name text htext => htext.mem_entries_or_hidden ht hwalked, ?_⟩
  · exact hpasses.trans (and_congr_right (findings_eq_nil_iff ht hdir hreadable hwalked))
  · -- the names are in order, and so are the findings among them
    refine (hwalked.pairwise_names ht hdir).filterMap _ fun name name' hbefore e he e' he' => ?_
    rwa [file_of_seenFoundIn he, file_of_seenFoundIn he']
  · intro name
    rw [List.mem_map]
    constructor
    · rintro ⟨e, he, rfl⟩
      obtain ⟨name, hentry, text, htext, hsome⟩ := (hmem e).mp he
      obtain ⟨hoffends, hfile, -⟩ := mem_foundIn_iff.mp hsome
      rw [hfile]
      exact ⟨hentry, text, htext, hoffends⟩
    · rintro ⟨hentry, text, htext, hoffends⟩
      exact ⟨⟨name, _, _⟩, (hmem _).mpr ⟨name, hentry, text, htext,
        mem_foundIn_iff.mpr ⟨hoffends, rfl, rfl, rfl⟩⟩, rfl⟩
  · intro e he
    obtain ⟨name, -, text, htext, hsome⟩ := (hmem e).mp he
    obtain ⟨-, rfl, hgroup, haudit⟩ := mem_foundIn_iff.mp hsome
    refine ⟨hgroup, text, htext, ?_⟩
    rw [haudit]
    exact lists_audit

end Run

/-! ### A directory that cannot be looked into -/

/-- The directory of a workspace. -/
def leftDir : Place := [.text ".claude".toList, .text "commands".toList]

/-- A text in which a literal of the built-in rules is left. -/
def leftText : Octets := .text "WOR-1 and WOR-2".toList

/-- A workspace with two files with that text, one of them in a directory that cannot be listed. -/
def leftTree : FileTree where
  base := []
  entries := [(leftDir ++ [.text "a.md".toList], .file leftText FileTree.fileMode),
    (leftDir ++ [.text ['x']], .dir 0o111),
    (leftDir ++ [.text ['x'], .text "b.md".toList], .file leftText FileTree.fileMode),
    (leftDir, .dir FileTree.dirMode), (leftDir.dropLast, .dir FileTree.dirMode)]

/-- The tree can come about, by making directories and files from an empty one. -/
theorem made_leftTree : leftTree.Made := by
  let x : Place × FileEntry := (leftDir ++ [.text ['x']], .dir FileTree.dirMode)
  let dirs : FileTree := ⟨[], x :: leftTree.entries.drop 3⟩
  let files : FileTree := ⟨[], leftTree.entries[2] :: dirs.entries⟩
  let unlisted : FileTree := ⟨[], leftTree.entries.drop 1⟩
  have hdirs : (FileTree.mk [] []).makeDirs (.text "/.claude/commands/x".toList) = .ok dirs := by
    decide +kernel
  have hfile : dirs.overwrite (.text "/.claude/commands/x/b.md".toList) leftText = .ok files := by
    decide +kernel
  have hunlisted : files.chmod (.text "/.claude/commands/x".toList) 0o111 = .ok unlisted := by
    decide +kernel
  have hleft : unlisted.overwrite (.text "/.claude/commands/a.md".toList) leftText =
      .ok leftTree := by
    decide +kernel
  exact .overwrite (.chmod (.overwrite (.makeDirs (.empty []) hdirs) hfile) hunlisted) hleft

/-- The directory that cannot be listed. -/
def leftClosed : List Place := [leftDir ++ [.text ['x']]]

/-- The walk comes to that directory, but not to what is in it. -/
def leftSteps : List WalkStep := [
  .ok ⟨.text "/.claude/commands".toList, false⟩,
  .ok ⟨.text "/.claude/commands/a.md".toList, true⟩,
  .ok ⟨.text "/.claude/commands/x".toList, false⟩,
  .error (SealedMachine.denied "/.claude/commands".toList [.text ['x']])]

theorem below_leftTree : leftTree.below leftDir =
    [([.text "a.md".toList], .file leftText FileTree.fileMode), ([.text ['x']], .dir 0o111),
      ([.text ['x'], .text "b.md".toList], .file leftText FileTree.fileMode)] := by
  -- the entries are listed in order already
  rw [FileTree.below, List.mergeSort_of_pairwise]
  · decide +kernel
  · decide +kernel

theorem find_leftTree : leftTree.find (.text "/.claude/commands".toList) =
    .ok (leftDir, .dir FileTree.dirMode) := by
  decide +kernel

/-- A walk comes to the first file and to the closed directory, and not to what is in it. -/
theorem walk_leftTree :
    SealedMachine.walk leftClosed leftTree "/.claude/commands".toList = leftSteps := by
  rw [SealedMachine.walk, find_leftTree]
  dsimp only
  rw [below_leftTree]
  decide +kernel

/-- One file is found there, and one directory is reported. -/
theorem ofSteps_leftSteps : MarkdownFiles.ofSteps "/.claude/commands".toList leftSteps =
    ⟨["a.md".toList], ["/.claude/commands/x".toList]⟩ := by
  have hnames : (entriesOf leftSteps).filterMap
      (MarkdownFiles.nameOf? "/.claude/commands".toList) = ["a.md".toList] := by
    decide +kernel
  rw [MarkdownFiles.ofSteps, hnames, Text.sorted, List.mergeSort_singleton]
  decide +kernel

/-- A literal is left in two files, one of them in a directory that cannot be listed.  The check
finds the other one, and fails for both reasons. -/
theorem check_all_exact_sealed :
    let s : SealedMachine := ⟨.ofFiles leftTree, leftClosed⟩
    let w : Workspace := ⟨"/.claude/commands".toList, .builtin, .builtin⟩
    let opened := (openAt none none none : ExceptT Failure (StateM SealedMachine) _).run.run s
    let result := (((Command.check none none true false).run false false none :
      ExceptT Failure (StateM SealedMachine) Unit).run.run s).1
    (opened.1 = .ok w ∧ tree opened.2 = leftTree ∧ leftTree.Orderly ∧
        leftTree.isFile (.text w.commandsDir) = false ∧ w.MarkdownReadable leftTree) ∧
      result = .error (.checkFailed 2) ∧
      ∃ text, w.HasMarkdown leftTree "a.md".toList text ∧ w.Lists text [("WOR-".toList, 2)] := by
  intro s w opened result
  have hopen : opened.1 = .ok w := rfl
  have htree : tree opened.2 = leftTree := by decide +kernel
  have hclosed : opened.2.closed = leftClosed := by decide +kernel
  have ht : leftTree.Orderly := made_leftTree.orderly
  have hfile : leftTree.isFile (.text w.commandsDir) = false := by decide +kernel
  have hreadable : w.MarkdownReadable leftTree := by
    refine markdownReadable_of_below "WOR-1 and WOR-2".toList ht find_leftTree ?_
    rw [below_leftTree]
    decide +kernel
  have hwalk : (Host.walkDir w.commandsDir : StateM SealedMachine (List WalkStep)).run opened.2 =
      (leftSteps, opened.2) := by
    have hfiles : opened.2.machine.files = leftTree := htree
    rw [SealedMachine.run_walkDir, hclosed, hfiles, walk_leftTree]
  have hread : ∀ name ∈ (MarkdownFiles.ofSteps w.commandsDir leftSteps).names, ∃ text,
      (sight opened.2).readText (w.pathOf name) = .ok text := by
    rw [ofSteps_leftSteps]
    intro name hname
    cases List.mem_singleton.mp hname
    exact ⟨"WOR-1 and WOR-2".toList, by decide +kernel⟩
  have hseen : ["a.md".toList].filterMap (w.seenFoundIn (sight opened.2)) =
      [⟨"a.md".toList, none, ⟨[("WOR-".toList, 2)], false, false⟩⟩] := by
    decide +kernel
  have hopened : (openAt none none none : ExceptT Failure (StateM SealedMachine) _).run.run s =
      opened := rfl
  clear_value opened
  obtain ⟨s₁, hsearch, hsight⟩ := MarkdownFiles.exists_run_search hwalk rfl
  obtain ⟨s₂, hcheck⟩ := exists_run_check_all hsearch hsight hread
  rw [ofSteps_leftSteps, hseen] at hcheck
  obtain ⟨steps, report, hsteps, -, hreport, hiff, hfails, -, -, -, -, hlists⟩ :=
    check_all_exact false false false none none none w s opened.2
      (hopened.trans (Prod.ext hopen rfl)) (by rw [htree]; exact ht) (by rw [htree]; exact hfile)
      (by rw [htree]; exact hreadable)
  rw [hwalk] at hsteps
  subst hsteps
  cases (congrArg Prod.fst hcheck).symm.trans hreport
  rw [htree] at hlists
  obtain ⟨-, text, hmarkdown, hlist⟩ := hlists _ (List.mem_singleton_self _)
  have hnot : result ≠ .ok () := fun hok => List.cons_ne_nil _ _ (hiff.mp hok).1
  exact ⟨⟨hopen, htree, ht, hfile, hreadable⟩, (hfails hnot).1, text, hmarkdown, hlist⟩

end Workspace

end CommandTemplates
