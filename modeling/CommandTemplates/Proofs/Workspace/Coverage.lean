import CommandTemplates.Proofs.Workspace.Gate
import CommandTemplates.Proofs.Workspace.Preview

/-!
# A check of all files covers a check of the listed ones

A check of the listed files asks for the literals of the group that owns a file, and a check of
every Markdown file for those of all groups.  The one walks through the groups, the other searches
the directory.  Where both come to the same file, they read the same text and look up the same
group, and what the first finds there is found by the other, too.

## Main Definitions

* `CheckEntry.Covers` — a finding says at least what another one says of the same file

## Main Results

* `Text.countLiterals_subset`, `Workspace.literalsFor_subset` — more literals, more of them found
* `Workspace.exists_foundIn` — one file, looked at in both ways
* `Workspace.mem_findings_check_iff`, `Workspace.exists_mem_findings_check_all_iff` — what both find
* `Workspace.check_all_covers` — a check of all files finds what a check of the listed ones finds,
  where it comes to the same files
-/

namespace CommandTemplates

open SteadyHost (sight)

/-- A finding says at least what another one says of the same file. -/
structure CheckEntry.Covers (e e' : CheckEntry) : Prop where
  file_eq : e.file = e'.file
  group_eq : e.group = e'.group
  missingNotice_eq : e.audit.missingNotice = e'.audit.missingNotice
  missingGuide_eq : e.audit.missingGuide = e'.audit.missingGuide
  literals_subset : e'.audit.literals ⊆ e.audit.literals

/-- When more literals are asked for, each one that is found before is found as often. -/
theorem Text.countLiterals_subset {text : Text} {literals literals' : List Text}
    (h : literals ⊆ literals') : text.countLiterals literals ⊆ text.countLiterals literals' :=
  List.filterMap_subset _ h

/-- When work on every element of a list succeeds, its results are those of the elements. -/
theorem mem_iff_of_mapM_eq_ok {f : α → Except ε β} {as : List α} {bs : List β} {b : β}
    (h : as.mapM f = .ok bs) : b ∈ bs ↔ ∃ a ∈ as, f a = .ok b := by
  induction as generalizing bs with
  | nil =>
    cases h
    simp
  | cons a as ih =>
    rw [List.mapM_cons] at h
    cases hfirst : f a with
    | error failure =>
      rw [hfirst] at h
      cases h
    | ok first =>
      cases hrest : as.mapM f with
      | error failure =>
        rw [hfirst, hrest] at h
        cases h
      | ok rest =>
        rw [hfirst, hrest] at h
        cases h
        simp [ih hrest, hfirst, eq_comm]

namespace Workspace

section Files

variable {w : Workspace} {file content : Text} {e : CheckEntry}

/-- The literals that a listed file is audited for are literals of the rules. -/
theorem literalsFor_subset (w : Workspace) (file : Text) :
    w.literalsFor false (w.rules.groupFor file) ⊆ w.rules.allLiterals := by
  cases howner : w.rules.groupFor file with
  | none => exact List.Subset.refl _
  | some group =>
    intro literal hliteral
    obtain ⟨r, hr, rfl⟩ := List.mem_map.mp hliteral
    exact mem_allLiterals_iff.mpr ⟨group, List.mem_of_find?_eq_some howner, r, hr, rfl⟩

/-- What is found in a listed file is found when all files are checked. -/
theorem exists_foundIn (h : w.findingOf file content = some e) :
    ∃ e', w.foundIn file content = some e' ∧ e'.Covers e := by
  have hliterals := w.literalsFor_subset file
  rw [findingOf] at h
  split at h
  · cases h
  · next hfound =>
    cases h
    refine ⟨⟨file, _, _⟩, if_neg fun hclean => hfound ?_, rfl, rfl, rfl, rfl,
      Text.countLiterals_subset hliterals⟩
    -- a text without any of all the literals has none of these
    simp only [audit, Audit.isClean, Bool.and_eq_true, List.isEmpty_iff] at hclean ⊢
    refine ⟨⟨List.subset_nil.mp ?_, hclean.1.2⟩, hclean.2⟩
    rw [← hclean.1.1]
    exact Text.countLiterals_subset hliterals

end Files

section Runs

variable {σ : Type} [Host (StateM σ)] {w : Workspace} {s : σ} {e : CheckEntry}
  {report : CheckReport}

omit [Host (StateM σ)] in
/-- What is found in files one after the other is found in one of them. -/
theorem mem_findings_iff_of_mapM {v : Sight} {names : List Text} {checked : Nat}
    {unreadable : List Text} {find : Text → Text → Option CheckEntry}
    (h : (do
      let entries ← names.mapM fun name =>
        v.readText (w.pathOf name) >>= fun text => .ok (find name text)
      return ⟨checked, entries.filterMap id, unreadable⟩) = Except.ok report) :
    e ∈ report.findings ↔ ∃ name ∈ names, ∃ text,
      v.readText (w.pathOf name) = .ok text ∧ find name text = some e := by
  cases hentries : names.mapM fun name =>
    v.readText (w.pathOf name) >>= fun text => .ok (find name text) with
  | error failure =>
    rw [hentries] at h
    cases h
  | ok entries =>
    rw [hentries] at h
    cases h
    have hmem : e ∈ entries.filterMap id ↔ some e ∈ entries := by simp
    rw [hmem, mem_iff_of_mapM_eq_ok hentries]
    refine exists_congr fun name => and_congr_right fun _ => ?_
    cases v.readText (w.pathOf name) with
    | error failure => exact ⟨nofun, nofun⟩
    | ok text => simp [bind, Except.bind]

/-- A check of the listed files finds what there is in those that are there. -/
theorem mem_findings_check_iff [SteadyHost σ]
    (h : ((w.check false : ExceptT Failure (StateM σ) CheckReport).run.run s).1 = .ok report) :
    e ∈ report.findings ↔ ∃ file ∈ w.seenFiles (sight s) (Group.listing w.rules.groups),
      ∃ text, (sight s).readText (w.pathOf file) = .ok text ∧ w.findingOf file text = some e := by
  rw [(gives_check w (sight s)).run_fst] at h
  exact mem_findings_iff_of_mapM h

/-- A check of all files finds what there is in those that a search finds. -/
theorem exists_mem_findings_check_all_iff [SearchingHost σ]
    (h : ((w.check true : ExceptT Failure (StateM σ) CheckReport).run.run s).1 = .ok report) :
    ∃ found, ((MarkdownFiles.search w.commandsDir :
        ExceptT Failure (StateM σ) MarkdownFiles).run.run s).1 = .ok found ∧
      ∀ e, e ∈ report.findings ↔ ∃ name ∈ found.names, ∃ text,
        (sight s).readText (w.pathOf name) = .ok text ∧ w.foundIn name text = some e := by
  obtain ⟨steps, s₁, hwalk, hsight, -⟩ := SearchingHost.run_walkDir w.commandsDir s
  obtain ⟨s₂, hsearch, hsight₂⟩ := MarkdownFiles.exists_run_search hwalk hsight
  obtain ⟨s₃, hrun⟩ := exists_run_check_found hsearch hsight₂
  rw [hrun] at h
  exact ⟨_, congrArg Prod.fst hsearch, fun e => mem_findings_iff_of_mapM h⟩

/-- Where a check of the listed files and a check of all files both succeed, what the first finds in
a file that a search comes to is found by the other, too: for the same group, with the same notice
and the same guide missing, and with every literal as often. -/
theorem check_all_covers {σ : Type} [Host (StateM σ)] [SearchingHost σ] (w : Workspace) (s : σ)
    (listed all : CheckReport)
    (hlisted : ((w.check false : ExceptT Failure (StateM σ) CheckReport).run.run s).1 = .ok listed)
    (hall : ((w.check true : ExceptT Failure (StateM σ) CheckReport).run.run s).1 = .ok all) :
    ∃ found, ((MarkdownFiles.search w.commandsDir :
        ExceptT Failure (StateM σ) MarkdownFiles).run.run s).1 = .ok found ∧
      ∀ e ∈ listed.findings, e.file ∈ found.names → ∃ e' ∈ all.findings, e'.Covers e := by
  obtain ⟨found, hsearch, hmem⟩ := exists_mem_findings_check_all_iff hall
  refine ⟨found, hsearch, fun e he hname => ?_⟩
  obtain ⟨file, -, text, hread, hfinding⟩ := (mem_findings_check_iff hlisted).mp he
  obtain ⟨e', hfound, hcovers⟩ := exists_foundIn hfinding
  have hfile : e.file = file := hcovers.file_eq.symm.trans (mem_foundIn_iff.mp hfound).2.1
  rw [hfile] at hname
  exact ⟨e', (hmem e').mpr ⟨file, hname, text, hread, hfound⟩, hcovers⟩

end Runs

/-- Rules with a literal that is declared twice, and another one for a file that is not there. -/
def leftRules : RuleSet where
  notice := []
  groups := [
    { name := ['g']
      files := ["a.md".toList, "x/b.md".toList]
      replacements := [⟨"WOR-".toList, []⟩, ⟨"WOR-".toList, ['#']⟩] },
    { name := ['h'], files := ["c.md".toList], replacements := [⟨['1'], []⟩] }]

/-- A search comes to one of two listed files.  There the check of all files finds the literal of
the group, once, and that of the other group. -/
theorem check_all_covers_left :
    let s : SealedMachine := ⟨.ofFiles leftTree, leftClosed⟩
    let w : Workspace := ⟨"/.claude/commands".toList, leftRules, .builtin⟩
    let checked (all : Bool) :=
      ((w.check all : ExceptT Failure (StateM SealedMachine) CheckReport).run.run s).1
    let finding (file : Text) (literals : List (Text × Nat)) : CheckEntry :=
      ⟨file, some ['g'], ⟨literals, false, false⟩⟩
    let twice : List (Text × Nat) := [("WOR-".toList, 2), ("WOR-".toList, 2)]
    let listed : CheckReport :=
      ⟨2, [finding "a.md".toList twice, finding "x/b.md".toList twice], []⟩
    let found : CheckEntry := finding "a.md".toList [("WOR-".toList, 2), (['1'], 1)]
    let all : CheckReport := ⟨1, [found], ["/.claude/commands/x".toList]⟩
    checked false = .ok listed ∧ checked true = .ok all ∧
      found.Covers (finding "a.md".toList twice) := by
  intro s w checked finding twice listed found all
  have hlisted : checked false = .ok listed := by decide +kernel
  have hwalk : (Host.walkDir w.commandsDir : StateM SealedMachine (List WalkStep)).run s =
      (leftSteps, s) := by
    rw [SealedMachine.run_walkDir]
    exact congrArg (·, s) walk_leftTree
  obtain ⟨s₁, hsearch, hsight⟩ := MarkdownFiles.exists_run_search hwalk rfl
  rw [ofSteps_leftSteps] at hsearch
  have hread : ∀ name ∈ ["a.md".toList], ∃ text,
      (sight s).readText (w.pathOf name) = .ok text := by
    intro name hname
    cases List.mem_singleton.mp hname
    exact ⟨"WOR-1 and WOR-2".toList, by decide +kernel⟩
  have hseen : ["a.md".toList].filterMap (w.seenFoundIn (sight s)) = [found] := by
    decide +kernel
  have hall : checked true = .ok all := by
    obtain ⟨s₂, hcheck⟩ := exists_run_check_all hsearch hsight hread
    rw [hseen] at hcheck
    exact congrArg Prod.fst hcheck
  obtain ⟨names, hnames, hcovered⟩ := check_all_covers w s listed all hlisted hall
  cases (congrArg Prod.fst hsearch).symm.trans hnames
  obtain ⟨e, he, hcovers⟩ := hcovered _ List.mem_cons_self (List.mem_singleton_self _)
  cases List.mem_singleton.mp he
  exact ⟨hlisted, hall, hcovers⟩

end Workspace

end CommandTemplates
