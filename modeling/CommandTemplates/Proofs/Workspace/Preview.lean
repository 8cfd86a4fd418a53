import CommandTemplates.Proofs.Document.Agreement
import CommandTemplates.Proofs.Host.SteadyHost
import CommandTemplates.Proofs.Workspace.Rollback
import CommandTemplates.Workspace.Check

/-!
# A check foretells a dry run

A check leaves out the files that are not there, looks up the group of each of the others by its
name, and audits them.  A dry run walks through the groups, and makes a template of each file that
is there without writing it.  In an accepted rule set the group that owns a listed file is the one
that lists it, so that both ask the same about the same files in the same order.

## Main Definitions

* `FileReport.hasWork` — a report says that there is something to do
* `CheckEntry.Agrees` — a finding and a report are about the same file
* `Workspace.seenReport`, `Workspace.seenFinding` — what comes of one file, by what is seen
* `Workspace.FirstUnreadable` — the first listed file that is there and cannot be read
* `Workspace.Foretells` — what a check finds, file by file, beside the reports of a dry run

## Main Results

* `Workspace.gives_apply_dry`, `Workspace.gives_check` — both runs by what is seen
* `Workspace.foretells_of_seen` — a check foretells a dry run, unless both fail at the same file
* `Workspace.check_agrees_with_dry_run` — the reports of both
-/

namespace CommandTemplates

open SteadyHost (sight)

/-- Whether there is something to do for a file. -/
def FileReport.hasWork (r : FileReport) : Bool :=
  r.noticeAdded || r.guideAdded || !r.replacements.isEmpty

/-- A finding is about the file of a report, and misses a notice if one was added. -/
structure CheckEntry.Agrees (e : CheckEntry) (r : FileReport) : Prop where
  file_eq : e.file = r.file
  group_eq : e.group = some r.group
  missingNotice_eq : e.audit.missingNotice = r.noticeAdded

namespace Workspace

/-! ### Both runs, by what is seen -/

/-- What a dry run reports of a listed file. -/
def seenReport (w : Workspace) (v : Sight) (group : Group) (file : Text) :
    Except Failure FileReport :=
  if v.isFile (w.pathOf file) then do
    let content ← v.readText (w.pathOf file)
    return w.reportOf group file content
  else .ok (.missing file group)

/-- What a check finds in a file with this text. -/
def findingOf (w : Workspace) (file content : Text) : Option CheckEntry :=
  let group := w.rules.groupFor file
  let found := audit content (w.literalsFor false group) group
  if found.isClean then none else some ⟨file, group.map (·.name), found⟩

/-- What a check finds in a file. -/
def seenFinding (w : Workspace) (v : Sight) (file : Text) : Except Failure (Option CheckEntry) := do
  let content ← v.readText (w.pathOf file)
  return w.findingOf file content

/-- The listed files that are there. -/
def seenFiles (w : Workspace) (v : Sight) (listed : List (Group × Text)) : List Text :=
  (listed.map (·.2)).filter fun file => v.isFile (w.pathOf file)

section Runs

variable {σ : Type} [Host (StateM σ)] [SteadyHost σ]

open Sight (Gives GivesWithin)

/-- A dry visit reports what can be seen of its file. -/
theorem givesWithin_generalizeFile (w : Workspace) (v : Sight) (group : Group) (file : Text) :
    v.GivesWithin (σ := σ) (w.generalizeFile true group file) (w.seenReport v group file) := by
  have hsteps := GivesWithin.stepwise (σ := σ) v
  rw [generalizeFile, seenReport]
  refine hsteps.bind_ok (.isFile v (w.pathOf file)) ?_
  cases v.isFile (w.pathOf file) with
  | false => exact hsteps.bind_ok (.note v _) (hsteps.pure _)
  | true =>
    refine hsteps.bind (.readText v (w.pathOf file)) fun content _ => ?_
    -- a dry run writes nothing
    dsimp only
    rw [if_neg fun h => Bool.false_ne_true h.2]
    exact hsteps.bind_ok (.note v _) (hsteps.pure _)

/-- Auditing a file gives what can be seen of it. -/
theorem gives_auditFile (w : Workspace) (v : Sight) (file : Text) :
    v.Gives (σ := σ) (w.auditFile false file) (w.seenFinding v file) := by
  have hsteps := Gives.stepwise (σ := σ) v
  exact hsteps.bind (.readText v (w.pathOf file)) fun _ _ => hsteps.pure _

/-- What a dry run of all groups reports. -/
theorem gives_apply_dry (w : Workspace) (v : Sight) :
    v.Gives (σ := σ) (w.apply [] true) (do
      let files ← (Group.listing w.rules.groups).mapM fun l => w.seenReport v l.1 l.2
      return ⟨true, files⟩) := by
  have hsteps := Gives.stepwise (σ := σ) v
  have hselect : w.rules.select [] = .ok w.rules.groups :=
    RuleSet.select_eq_ok_iff.mpr ⟨nofun, by simp [RuleSet.chosen]⟩
  have hfiles := (GivesWithin.stepwise (σ := σ) v).mapM
    (fun l : Group × Text => givesWithin_generalizeFile w v l.1 l.2) (Group.listing w.rules.groups)
  rw [apply, hselect]
  refine hsteps.bind_ok (hfiles {}) ?_
  cases (Group.listing w.rules.groups).mapM fun l => w.seenReport v l.1 l.2 with
  | error failure => exact hsteps.bind_ok (hsteps.pure ()) (hsteps.throw failure)
  | ok files => exact hsteps.bind_ok (.note v _) (hsteps.pure _)

/-- What a check of the listed files reports. -/
theorem gives_check (w : Workspace) (v : Sight) :
    v.Gives (σ := σ) (w.check false) (do
      let entries ← (w.seenFiles v (Group.listing w.rules.groups)).mapM (w.seenFinding v)
      return { checked := (w.seenFiles v (Group.listing w.rules.groups)).length
               findings := entries.filterMap id
               unreadable := [] }) := by
  have hsteps := Gives.stepwise (σ := σ) v
  have hthere := hsteps.filterM (fun file => .isFile v (w.pathOf file))
    (w.rules.groups.flatMap (·.files))
  rw [← map_snd_listing] at hthere
  rw [check, if_neg Bool.false_ne_true, listedFiles, ← map_snd_listing]
  refine hsteps.bind_ok hthere (hsteps.bind_ok (hsteps.pure _) ?_)
  exact hsteps.bind (hsteps.mapM (gives_auditFile w v) _) fun entries _ => hsteps.pure _

end Runs

/-! ### What both see -/

/-- The first listed file that is there and cannot be read, and why. -/
inductive FirstUnreadable (w : Workspace) (v : Sight) : List (Group × Text) → Text → Text → Prop
  | here (hfile : v.isFile (w.pathOf file) = true)
      (hread : v.readText (w.pathOf file) = .error (.readFailed (w.pathOf file) reason)) :
      FirstUnreadable w v ((group, file) :: listed) file reason
  | later {earlier : Text}
      (hpassed : v.isFile (w.pathOf earlier) = true →
        ∃ content, v.readText (w.pathOf earlier) = .ok content)
      (hlater : FirstUnreadable w v listed file reason) :
      FirstUnreadable w v ((group, earlier) :: listed) file reason

/-- What a check finds in the listed files that are there, beside the reports of a dry run. -/
inductive Foretells (w : Workspace) (v : Sight) :
    List (Group × Text) → List (Option CheckEntry) → List FileReport → Prop
  | nil : Foretells w v [] [] []
  | missing (hfile : v.isFile (w.pathOf file) = false)
      (hrest : Foretells w v listed entries reports) :
      Foretells w v ((group, file) :: listed) entries (.missing file group :: reports)
  | settled (hfile : v.isFile (w.pathOf file) = true) {report : FileReport}
      (hthere : report.status ≠ .skipped) (hwork : report.hasWork = false)
      (hrest : Foretells w v listed entries reports) :
      Foretells w v ((group, file) :: listed) (none :: entries) (report :: reports)
  | found (hfile : v.isFile (w.pathOf file) = true) {report : FileReport} {entry : CheckEntry}
      (hthere : report.status ≠ .skipped) (hwork : report.hasWork = true)
      (hagrees : entry.Agrees report) (hrest : Foretells w v listed entries reports) :
      Foretells w v ((group, file) :: listed) (some entry :: entries) (report :: reports)

/-! ### One file -/

section Files

variable {w : Workspace} {v : Sight} {group : Group} {file content reason : Text}
  {listed : List (Group × Text)} {entries : List (Option CheckEntry)} {reports : List FileReport}

/-- A report speaks of work exactly when something was done to make the template. -/
theorem hasWork_reportOf :
    (w.reportOf group file content).hasWork = !(w.templateOf group content).isNoop := by
  simp [FileReport.hasWork, reportOf, FileReport.ofTemplate, Template.isNoop]

/-- A file with a text is not skipped. -/
theorem reportOf_status_ne_skipped : (w.reportOf group file content).status ≠ .skipped := by
  rw [reportOf, FileReport.ofTemplate]
  split <;> exact nofun

/-- A check finds nothing in a text that there is nothing to do for. -/
theorem findingOf_eq_none (howner : w.rules.groupFor file = some group)
    (hwork : (w.reportOf group file content).hasWork = false) :
    w.findingOf file content = none := by
  rw [hasWork_reportOf, Bool.not_eq_false', templateOf, Group.generalize_isNoop_iff,
    ← audit_isClean_iff] at hwork
  rw [findingOf, howner]
  exact if_pos hwork

/-- A check finds what there is to do for a text. -/
theorem exists_findingOf (howner : w.rules.groupFor file = some group)
    (hwork : (w.reportOf group file content).hasWork = true) :
    ∃ entry, w.findingOf file content = some entry ∧
      entry.Agrees (w.reportOf group file content) := by
  rw [hasWork_reportOf, Bool.not_eq_true', ← Bool.not_eq_true, templateOf,
    Group.generalize_isNoop_iff, ← audit_isClean_iff] at hwork
  refine ⟨⟨file, some group.name, audit content group.literals (some group)⟩, ?_, rfl, rfl, ?_⟩
  · rw [findingOf, howner]
    exact if_neg hwork
  · exact audit_missingNotice w.rules.notice

/-! ### All files -/

theorem seenFiles_cons : w.seenFiles v ((group, file) :: listed) =
    if v.isFile (w.pathOf file) then file :: w.seenFiles v listed else w.seenFiles v listed :=
  List.filter_cons

/-- As many files are audited as are reported to be there. -/
theorem Foretells.length_seenFiles (h : Foretells w v listed entries reports) :
    (w.seenFiles v listed).length = reports.countP (·.status ≠ .skipped) := by
  rw [seenFiles]
  induction h with
  | nil => rfl
  | missing hfile _ ih => simp [hfile, ih, FileReport.missing]
  | settled hfile hthere _ _ ih => simp [hfile, ih, hthere]
  | found hfile hthere _ _ _ ih => simp [hfile, ih, hthere]

/-- The findings are the reports that say that there is something to do. -/
theorem Foretells.findings (h : Foretells w v listed entries reports) :
    List.Forall₂ CheckEntry.Agrees (entries.filterMap id) (reports.filter (·.hasWork)) := by
  induction h with
  | nil => exact .nil
  | missing _ _ ih => exact ih
  | settled _ _ hwork _ ih => simpa [hwork] using ih
  | found _ _ hwork hagrees _ ih => simpa [hwork] using ⟨hagrees, ih⟩

/-- What is found in a text foretells what is reported of it. -/
theorem Foretells.text (hrest : Foretells w v listed entries reports)
    (howner : w.rules.groupFor file = some group) (hfile : v.isFile (w.pathOf file) = true)
    (content : Text) :
    Foretells w v ((group, file) :: listed) (w.findingOf file content :: entries)
      (w.reportOf group file content :: reports) := by
  cases hwork : (w.reportOf group file content).hasWork with
  | false =>
    rw [findingOf_eq_none howner hwork]
    exact .settled hfile reportOf_status_ne_skipped hwork hrest
  | true =>
    obtain ⟨entry, hentry, hagrees⟩ := exists_findingOf howner hwork
    rw [hentry]
    exact .found hfile reportOf_status_ne_skipped hwork hagrees hrest

/-- A check and a dry run fail at the same file, or the one foretells the other. -/
theorem foretells_of_seen (howner : ∀ l ∈ listed, w.rules.groupFor l.2 = some l.1) :
    (∃ file reason, FirstUnreadable w v listed file reason ∧
      (w.seenFiles v listed).mapM (w.seenFinding v) =
        .error (.readFailed (w.pathOf file) reason) ∧
      (listed.mapM fun l => w.seenReport v l.1 l.2) =
        .error (.readFailed (w.pathOf file) reason)) ∨
    ∃ entries reports, (w.seenFiles v listed).mapM (w.seenFinding v) = .ok entries ∧
      (listed.mapM fun l => w.seenReport v l.1 l.2) = .ok reports ∧
      Foretells w v listed entries reports := by
  induction listed with
  | nil => exact Or.inr ⟨[], [], rfl, rfl, .nil⟩
  | cons l listed ih =>
    obtain ⟨group, file⟩ := l
    have hrest := ih fun l hl => howner l (List.mem_cons_of_mem _ hl)
    rw [seenFiles_cons, List.mapM_cons, seenReport]
    cases hfile : v.isFile (w.pathOf file) with
    | false =>
      rw [if_neg Bool.false_ne_true, if_neg Bool.false_ne_true]
      rcases hrest with
        ⟨file', reason, hfirst, hcheck, hdry⟩ | ⟨entries, reports, hcheck, hdry, hforetells⟩
      · have hpassed : v.isFile (w.pathOf file) = true →
            ∃ content, v.readText (w.pathOf file) = .ok content :=
          fun h => absurd (hfile.symm.trans h) Bool.false_ne_true
        exact Or.inl ⟨file', reason, .later hpassed hfirst, hcheck, by rw [hdry]; rfl⟩
      · exact Or.inr ⟨entries, _, hcheck, by rw [hdry]; rfl, .missing hfile hforetells⟩
    | true =>
      rw [if_pos rfl, if_pos rfl, List.mapM_cons, seenFinding]
      cases hread : v.readText (w.pathOf file) with
      | error failure =>
        obtain ⟨reason, rfl⟩ := Sight.exists_reason_of_readText hread
        exact Or.inl ⟨file, reason, .here hfile hread, rfl, rfl⟩
      | ok content =>
        rcases hrest with
          ⟨file', reason, hfirst, hcheck, hdry⟩ | ⟨entries, reports, hcheck, hdry, hforetells⟩
        · exact Or.inl ⟨file', reason, .later (fun _ => ⟨content, hread⟩) hfirst,
            by rw [hcheck]; rfl, by rw [hdry]; rfl⟩
        · exact Or.inr ⟨_, _, by rw [hcheck]; rfl, by rw [hdry]; rfl,
            hforetells.text (howner _ List.mem_cons_self) hfile content⟩

end Files

/-! ### The reports -/

/-- In an accepted rule set the group that a listed file stands under owns it. -/
theorem groupFor_of_mem_listing {rules : RuleSet} (hvalid : rules.validate = .ok ())
    {l : Group × Text} (hl : l ∈ Group.listing rules.groups) : rules.groupFor l.2 = some l.1 := by
  obtain ⟨group, hgroup, hl⟩ := List.mem_flatMap.mp hl
  obtain ⟨file, hfile, rfl⟩ := List.mem_map.mp hl
  exact (RuleSet.groupFor_eq_some_iff hvalid).mpr ⟨hgroup, hfile⟩

/-- A check of the listed files and a dry run of all groups see the same.  Either both fail, at the
first file that is there and cannot be read, or both succeed; then a check audits the files that
are reported to be there, and finds those that are reported to have something to do. -/
theorem check_agrees_with_dry_run {σ : Type} [Host (StateM σ)] [SteadyHost σ] (w : Workspace)
    (s : σ) (hvalid : w.rules.validate = .ok ()) :
    let checked := ((w.check false : ExceptT Failure (StateM σ) CheckReport).run.run s).1
    let applied := ((w.apply [] true : ExceptT Failure (StateM σ) ApplyReport).run.run s).1
    (∃ file reason, FirstUnreadable w (sight s) (Group.listing w.rules.groups) file reason ∧
      checked = .error (.readFailed (w.pathOf file) reason) ∧
      applied = .error (.readFailed (w.pathOf file) reason)) ∨
    ∃ found report, checked = .ok found ∧ applied = .ok report ∧
      found.checked = report.files.countP (·.status ≠ .skipped) ∧
      List.Forall₂ CheckEntry.Agrees found.findings (report.files.filter (·.hasWork)) ∧
      (found.isClean = true ↔ ∀ r ∈ report.files, r.hasWork = false) := by
  intro checked applied
  have hchecked := (gives_check w (sight s)).run_fst
  have happlied := (gives_apply_dry w (sight s)).run_fst
  rcases foretells_of_seen (v := sight s) fun l => groupFor_of_mem_listing hvalid (l := l) with
    ⟨file, reason, hfirst, hcheck, hdry⟩ | ⟨entries, reports, hcheck, hdry, hforetells⟩
  · rw [hcheck] at hchecked
    rw [hdry] at happlied
    exact Or.inl ⟨file, reason, hfirst, hchecked, happlied⟩
  · rw [hcheck] at hchecked
    rw [hdry] at happlied
    have hfindings := hforetells.findings
    refine Or.inr ⟨_, _, hchecked, happlied, hforetells.length_seenFiles, hfindings, ?_⟩
    have hnone : entries.filterMap id = [] ↔ reports.filter (·.hasWork) = [] := by
      rw [← List.length_eq_zero_iff, hfindings.length_eq, List.length_eq_zero_iff]
    rw [CheckReport.isClean, List.isEmpty_nil, Bool.and_true, List.isEmpty_iff, hnone,
      List.filter_eq_nil_iff]
    simp only [Bool.not_eq_true]

/-- One file has something to do, one has nothing to do, and one is a link that leads nowhere.  When
the second is no text, both runs fail at it. -/
theorem check_agrees_with_dry_run_doubling :
    let machine (second : FileEntry) : Machine := .ofFiles (doublingFiles second (.link ['x']))
    let checked (s : Machine) :=
      ((doubling.check false : ExceptT Failure (StateM Machine) CheckReport).run.run s).1
    let applied (s : Machine) :=
      ((doubling.apply [] true : ExceptT Failure (StateM Machine) ApplyReport).run.run s).1
    let text := machine (.file (.text ['b']) 0o600)
    let noText := machine (.file (.illFormed [0xFF]) 0o600)
    doubling.rules.validate = .ok () ∧
      (∃ found report, checked text = .ok found ∧ applied text = .ok report ∧ found.checked = 2 ∧
        List.Forall₂ CheckEntry.Agrees found.findings (report.files.filter (·.hasWork)) ∧
        found.isClean = false ∧ ∃ r ∈ report.files, r.hasWork = true) ∧
      ∃ failure, failure = .readFailed (doubling.pathOf "b.md".toList) FileFault.notText.message ∧
        checked noText = .error failure ∧ applied noText = .error failure := by
  intro machine checked applied text noText
  have hvalid : doubling.rules.validate = .ok () := by decide +kernel
  refine ⟨hvalid, ?_, _, rfl, ?_⟩
  · have hchecked : checked text =
        .ok ⟨2, [⟨"a.md".toList, some ['g'], ⟨[(['a'], 1)], false, false⟩⟩], []⟩ := by
      decide +kernel
    rcases check_agrees_with_dry_run doubling text hvalid with
      ⟨file, reason, -, hfailed, -⟩ | ⟨found, report, hfound, hreport, -, hfindings, hclean⟩
    · cases hchecked.symm.trans hfailed
    · cases hchecked.symm.trans hfound
      refine ⟨_, report, hchecked, hreport, rfl, hfindings, rfl, ?_⟩
      by_contra hnone
      simp only [not_exists, not_and, Bool.not_eq_true] at hnone
      exact Bool.false_ne_true (hclean.mpr hnone)
  · have hchecked : checked noText = .error
        (.readFailed (doubling.pathOf "b.md".toList) FileFault.notText.message) := by
      decide +kernel
    rcases check_agrees_with_dry_run doubling noText hvalid with
      ⟨file, reason, -, hfailed, happlied⟩ | ⟨found, report, hfound, -⟩
    · rw [← Except.error.inj (hchecked.symm.trans hfailed)] at happlied
      exact ⟨hchecked, happlied⟩
    · cases hchecked.symm.trans hfound

end Workspace

end CommandTemplates
