import CommandTemplates.Proofs.Rules.Validity
import CommandTemplates.Proofs.Workspace.Backup
import CommandTemplates.Proofs.Workspace.Visit

/-!
# Rollback

When an apply run fails, every file that it wrote is brought back.

## Main Definitions

* `Workspace.FailsFirst` — the first file at which a run fails, and what was written before

## Main Results

* `Workspace.Visits.remembers` — visits remember all that it takes to undo them
* `FileTree.Remembers.run_restore` — bringing everything back rolls the tree back
* `Workspace.exists_rolledBack` — a run that fails is rolled back
-/

namespace CommandTemplates

open FileHost (files)

/-! ### Bringing files back -/

section Restore

variable {σ : Type} [Host (StateM σ)] [FileHost σ] {s : σ} {t : FileTree} {backups : List Backup}

/-- Bringing files back gives each of them what its oldest backup says.  The induction is on the
backups, the newest first: an older one for the same place undoes what was brought back before it.
-/
theorem Transaction.run_restore (ht : (files s).WellFormed)
    (hfiles : ∀ b ∈ backups, ∃ place content mode,
      (files s).place? (.text b.path) = some place ∧
        (files s).entryAt? place = some (.file content mode)) :
    ∃ s', (restore backups : ExceptT Failure (StateM σ) Unit).run.run s = (.ok (), s') ∧
      (files s).Rewritten (files s') ∧
      (∀ place, (files s).oldestBackup? backups place = none →
        (files s').entryAt? place = (files s).entryAt? place) ∧
      ∀ place b content mode, (files s).oldestBackup? backups place = some b →
        (files s).entryAt? place = some (.file content mode) →
        (files s').entryAt? place = some (.file b.content mode) := by
  induction backups generalizing s with
  | nil => exact ⟨s, rfl, .refl _, fun _ _ => rfl, nofun⟩
  | cons b backups ih =>
    obtain ⟨seat, content, mode, hplace, hentry⟩ := hfiles b List.mem_cons_self
    have hseat := FileTree.isSeat_of_place? ht hplace hentry
    obtain ⟨s₁, hrun, hput⟩ := FileHost.run_overwrite b.path b.content s _
      (FileTree.overwrite_eq hplace hentry b.content)
    have hfirst := hseat.rewritten_put b.content mode
    rw [← hput] at hfirst
    have hentry₁ : ∀ place, (files s₁).entryAt? place =
        if place = seat then some (.file b.content mode) else (files s).entryAt? place := by
      intro place
      rw [hput, FileTree.entryAt?_put hseat.ne_nil]
    -- a path names the same place after the file was brought back, and a file stands there still
    obtain ⟨s₂, hrestore, hrest, huntouched, htouched⟩ := ih (hfirst.wellFormed ht) <| by
      intro b' hb'
      obtain ⟨place, content', mode', hplace', hentry'⟩ := hfiles b' (List.mem_cons_of_mem _ hb')
      refine ⟨place, ?_⟩
      rw [hfirst.place?_eq ht, hentry₁]
      split
      · exact ⟨_, _, hplace', rfl⟩
      · exact ⟨_, _, hplace', hentry'⟩
    refine ⟨s₂, ?_, hfirst.trans ht hrest, fun place hnone => ?_,
      fun place b' content' mode' hsome hentry' => ?_⟩
    · rw [restore, run_bind_of_ok (Host.run_overwrite hrun)]
      exact hrestore
    · rw [FileTree.oldestBackup?_cons, Option.or_eq_none_iff] at hnone
      rw [huntouched place ((hfirst.oldestBackup?_eq ht backups place).trans hnone.1), hentry₁,
        if_neg]
      rintro rfl
      rw [if_pos hplace] at hnone
      cases hnone.2
    · rw [FileTree.oldestBackup?_cons, ← hfirst.oldestBackup?_eq ht backups] at hsome
      cases hrest' : (files s₁).oldestBackup? backups place with
      | none =>
        rw [hrest', Option.none_or] at hsome
        split at hsome
        · next hplace' =>
          cases hsome
          cases hplace.symm.trans hplace'
          cases hentry.symm.trans hentry'
          rw [huntouched seat hrest', hentry₁, if_pos rfl]
        · cases hsome
      | some b₁ =>
        -- an older backup is brought back later, and counts
        rw [hrest', Option.some_or] at hsome
        cases hsome
        by_cases hsame : place = seat
        · subst hsame
          cases hentry.symm.trans hentry'
          exact htouched place _ _ _ hrest' (by rw [hentry₁, if_pos rfl])
        · exact htouched place _ _ _ hrest' (by rw [hentry₁, if_neg hsame, hentry'])

/-- After visits, bringing back what they remembered rolls the tree back. -/
theorem FileTree.Remembers.run_restore (ht : t.WellFormed)
    (h : t.Remembers (files s) backups) :
    ∃ s', (Transaction.restore backups : ExceptT Failure (StateM σ) Unit).run.run s =
      (.ok (), s') ∧ t.RolledBack (files s') backups := by
  have hplaces := h.rewritten.place?_eq ht
  have holdest := h.rewritten.oldestBackup?_eq ht backups
  obtain ⟨s', hrun, hrewritten, huntouched, htouched⟩ :=
    Transaction.run_restore (h.rewritten.wellFormed ht) fun b hb => by
      obtain ⟨place, hplace⟩ := h.named b hb
      obtain ⟨b', hb'⟩ := exists_oldestBackup? hb hplace
      obtain ⟨content, mode, hfile, -⟩ := h.touched place b' hb'
      exact ⟨place, content, mode, (hplaces _).trans hplace, hfile⟩
  refine ⟨s', hrun, h.rewritten.trans ht hrewritten, fun place hnone => ?_, fun place b hsome => ?_⟩
  · rw [huntouched place ((holdest place).trans hnone), h.untouched place hnone]
  · obtain ⟨content, mode, hfile, hbefore⟩ := h.touched place b hsome
    exact ⟨mode, htouched place b content mode ((holdest place).trans hsome) hfile, hbefore⟩

/-- What a failing visit remembered of a file that it did not write does no harm. -/
theorem FileTree.Remembers.run_discard (h : t.Remembers (files s) backups) (ht : t.WellFormed)
    (tx : Transaction) {unwritten : List Backup} (htx : tx.backups = unwritten ++ backups)
    (hopen : tx.committed = false)
    (hunwritten : ∀ b ∈ unwritten, (files s).read (.text b.path) = .ok b.content)
    (hone : unwritten.length ≤ 1) :
    ∃ s', (tx.discard : ExceptT Failure (StateM σ) Unit).run.run s = (.ok (), s') ∧
      t.RolledBack (files s') backups := by
  rw [Transaction.discard, hopen, Bool.false_or]
  split
  · next hempty =>
    obtain ⟨-, rfl⟩ := List.append_eq_nil_iff.mp (htx ▸ List.isEmpty_iff.mp hempty)
    obtain ⟨s', hrun, hrolled⟩ := h.run_restore ht
    cases hrun
    exact ⟨s, rfl, hrolled⟩
  · obtain ⟨s₁, hnote, hfiles⟩ := FileHost.run_note (.rollingBack tx.written) s
    rw [← hfiles] at h hunwritten
    obtain ⟨s₂, hrestore, hrolled⟩ : ∃ s₂,
        (Transaction.restore tx.backups : ExceptT Failure (StateM σ) Unit).run.run s₁ =
          (.ok (), s₂) ∧ t.RolledBack (files s₂) backups := by
      rw [htx]
      rcases unwritten with _ | ⟨b, _ | ⟨_, _⟩⟩
      · exact h.run_restore ht
      · -- the one file is overwritten with the content that it still has
        obtain ⟨t', hoverwrite, hbase, hentry⟩ :=
          overwrite_of_read (hunwritten b List.mem_cons_self)
        obtain ⟨s₂, hrun, rfl⟩ := FileHost.run_overwrite b.path b.content s₁ t' hoverwrite
        obtain ⟨s₃, hrestore, hrolled⟩ := (h.congr hbase hentry).run_restore ht
        refine ⟨s₃, ?_, hrolled⟩
        rw [List.singleton_append, Transaction.restore, run_bind_of_ok (Host.run_overwrite hrun)]
        exact hrestore
      · exact absurd hone (by simp)
    refine ⟨s₂, ?_, hrolled⟩
    rw [run_bind_of_ok (Host.run_note hnote),
      run_bind_of_ok (Transaction.run_rollback hopen hrestore)]
    rfl

end Restore

/-! ### Visits remember what it takes to undo them -/

namespace Workspace

section Visits

variable {w : Workspace} {dryRun : Bool} {group : Group} {file : Text} {t t' : FileTree}
  {report : FileReport} {listed : List (Group × Text)} {reports : List FileReport}
  {backups : List Backup}

/-- A visit remembers what the file held that it wrote. -/
theorem Visit.remembers (ht : t.WellFormed) (h : Visit w dryRun group file t report backups t') :
    FileTree.Remembers t t' backups := by
  cases h with
  | missing => exact .refl t
  | kept => exact .refl t
  | written hread hchanged hreal hreplace =>
    obtain ⟨seat, file, mode, hholds⟩ := FileTree.exists_holds_of_read ht hread
    cases (hholds.replace_eq _).symm.trans hreplace
    exact .put hholds

/-- A run remembers what every file held before it was first written.  Visits after it may read such
a file again, by way of a link; what they remember is newer, and does not count. -/
theorem Visits.remembers (ht : t.WellFormed)
    (h : Visits w dryRun t listed reports backups t') : FileTree.Remembers t t' backups := by
  induction h with
  | nil => exact .refl _
  | cons hvisit _ ih =>
    have hfirst := hvisit.remembers ht
    exact hfirst.append ht (ih (hfirst.rewritten.wellFormed ht))

/-- A visit remembers its own file, and what that holds. -/
theorem Visit.of_mem_backups (h : Visit w dryRun group file t report backups t') :
    ∀ b ∈ backups, b.path = w.pathOf file ∧ t.read (w.filePath file) = .ok b.content := by
  cases h with
  | missing => exact nofun
  | kept => exact nofun
  | written hread =>
    intro b hb
    rw [List.mem_singleton.mp hb]
    exact ⟨rfl, hread⟩

/-- Only listed files are remembered. -/
theorem Visits.exists_listed (h : Visits w dryRun t listed reports backups t') :
    ∀ b ∈ backups, ∃ l ∈ listed, b.path = w.pathOf l.2 := by
  induction h with
  | nil => exact nofun
  | cons hvisit _ ih =>
    intro b hb
    rcases List.mem_append.mp hb with hb | hb
    · obtain ⟨l, hl, hpath⟩ := ih b hb
      exact ⟨l, List.mem_cons_of_mem _ hl, hpath⟩
    · exact ⟨_, List.mem_cons_self, (hvisit.of_mem_backups b hb).1⟩

/-- A visit that gets stuck remembers one file at most, with the content that is still there. -/
theorem Stuck.read_eq {failure : Failure} (h : Stuck w dryRun file t failure backups) :
    (∀ b ∈ backups, t.read (.text b.path) = .ok b.content) ∧ backups.length ≤ 1 := by
  cases h with
  | unreadable => exact ⟨nofun, Nat.zero_le 1⟩
  | unready => exact ⟨nofun, Nat.zero_le 1⟩
  | unwritable hread =>
    refine ⟨fun b hb => ?_, Nat.le_refl 1⟩
    rw [List.mem_singleton.mp hb]
    exact hread

end Visits

/-! ### Runs that fail -/

section Fail

variable {σ : Type} [Host (StateM σ)] [FileHost σ]

/-- The failure of a run, and what was remembered of the files that were written before it: a
name is the first that no group has, or the files up to the first one that fails could be
visited. -/
inductive FailsFirst (w : Workspace) (only : List Text) (dryRun : Bool) (s : σ) :
    Failure → List Backup → Prop
  | unknownGroup (honly : only = before ++ name :: after)
      (hbefore : ∀ known ∈ before, w.rules.Knows known) (hname : ¬ w.rules.Knows name) :
      FailsFirst w only dryRun s (.unknownGroup name) []
  | stuck {failure : Failure} (honly : ∀ name ∈ only, w.rules.Knows name)
      (hlisting : Group.listing (w.rules.chosen only) = before ++ (group, file) :: after)
      (hbefore : (w.generalizeFiles dryRun before : ApplyWork σ (List FileReport)).runOn {} s =
        (.ok (.ok reports, { backups := written }), s₁))
      (hfailing : (w.generalizeFile dryRun group file : ApplyWork σ FileReport).runOn
        { backups := written } s₁ =
          (.ok (.error failure, { backups := remembered ++ written }), s₂))
      (hstuck : Stuck w dryRun file (files s₁) failure remembered) :
      FailsFirst w only dryRun s failure written

variable {w : Workspace} {only : List Text} {dryRun : Bool} {s s' : σ} {failure : Failure}

/-- A run that fails is rolled back, and fails at the first file at which it can, with the failure
of that file. -/
theorem exists_rolledBack (hs : (files s).WellFormed)
    (h : (w.apply only dryRun : ExceptT Failure (StateM σ) ApplyReport).run.run s =
      (.error failure, s')) :
    ∃ written, FailsFirst w only dryRun s failure written ∧
      (files s).RolledBack (files s') written := by
  rcases run_apply_eq_error h with
    ⟨name, hselect, rfl, rfl⟩ | ⟨groups, tx, s₁, hselect, hrun, hdiscard⟩
  · obtain ⟨hname, before, after, honly, hbefore⟩ := RuleSet.select_eq_error_iff.mp hselect
    exact ⟨[], .unknownGroup honly hbefore hname, .refl _, fun _ _ => rfl, nofun⟩
  · obtain ⟨honly, rfl⟩ := RuleSet.select_eq_ok_iff.mp hselect
    obtain ⟨before, group, file, after, reports, tx₁, s₂, hlisting, hbefore, hfailing⟩ :=
      exists_failing_of_generalizeFiles hrun
    obtain ⟨written, rfl, hvisits⟩ := visits_of_generalizeFiles hbefore
    rw [List.append_nil] at hbefore hfailing
    -- the file that fails changes nothing, but it may have been remembered
    obtain ⟨result, remembered, s₁', hfailing', hcases⟩ :=
      generalizeFile_cases w dryRun group file { backups := written } s₂
    cases hfailing.symm.trans hfailing'
    obtain ⟨failure', hfailure, hstuck, hsame⟩ :=
      hcases.resolve_left fun ⟨_, hno, _⟩ => nomatch hno
    cases hfailure
    have hremembers := hvisits.remembers hs
    rw [← hsame] at hremembers
    obtain ⟨hread, hone⟩ := hstuck.read_eq
    obtain ⟨s'', hdiscard', hrolled⟩ :=
      hremembers.run_discard hs { backups := remembered ++ written } rfl rfl
        (fun b hb => hsame ▸ hread b hb) hone
    cases hdiscard.symm.trans hdiscard'
    exact ⟨written, .stuck honly hlisting hbefore hfailing hstuck, hrolled⟩

/-- A run that fails leaves everything as it was that is no link.  A link that was written stays
a file, so all is as it was exactly when none was written; and every path leads to the content
that it led to exactly when the links that were written led to what they had led to at first. -/
theorem apply_failure (w : Workspace) (only : List Text) (dryRun : Bool) (s s' : σ)
    (failure : Failure) (hs : (files s).WellFormed)
    (h : (w.apply only dryRun : ExceptT Failure (StateM σ) ApplyReport).run.run s =
      (.error failure, s')) :
    ∃ written, FailsFirst w only dryRun s failure written ∧
      (∀ place, (∀ target, (files s).entryAt? place ≠ some (.link target)) →
        (files s').entryAt? place = (files s).entryAt? place) ∧
      ((∀ place, (files s').entryAt? place = (files s).entryAt? place) ↔
        ∀ b ∈ written, ∀ place target, (files s).place? (.text b.path) = some place →
          (files s).entryAt? place ≠ some (.link target)) ∧
      ((∀ path content, (files s').Yields path content ↔ (files s).Yields path content) ↔
        (files s).LinksKept written) ∧
      ((files s).LinksKept written → ∀ path content, (files s).read path = .ok content →
        (files s').read path = .ok content) := by
  obtain ⟨written, hfails, hrolled⟩ := exists_rolledBack hs h
  exact ⟨written, hfails, fun place => hrolled.entryAt?_eq, hrolled.entryAt?_eq_iff,
    hrolled.yields_iff hs, fun hkept path content => hrolled.read_eq hs hkept⟩

end Fail

/-! ### A file that cannot be written, and a link -/

deriving instance DecidableEq for Except

/-- A group of three files with a rule that can be applied again and again. -/
def doublingGroup : Group where
  name := ['g']
  files := ["a.md".toList, "b.md".toList, "c.md".toList]
  replacements := [⟨['a'], ['a', 'a']⟩]

/-- A workspace with this group. -/
def doubling : Workspace where
  commandsDir := defaultDir
  rules := ⟨Notice.standard, [doublingGroup]⟩
  source := .builtin

/-- The files of that workspace: a text, and what is given for the others. -/
def doublingFiles (second third : FileEntry) : FileTree where
  base := []
  entries :=
    let dir : Place := [.text ".claude".toList, .text "commands".toList]
    [(dir.dropLast, .dir FileTree.dirMode), (dir, .dir FileTree.dirMode),
      (dir ++ [.text "a.md".toList], .file (.text ['a']) FileTree.fileMode),
      (dir ++ [.text "b.md".toList], second), (dir ++ [.text "c.md".toList], third)]

/-- The second file cannot be written, and the first one is brought back. -/
theorem apply_failure_unwritable :
    let text : FileEntry := .file (.text ['b', 'a']) 0o600
    let s : FaultyMachine := ⟨.ofFiles (doublingFiles text text), [none, some .isDirectory]⟩
    let failure :=
      Failure.writeFailed (doubling.pathOf "b.md".toList) FileFault.isDirectory.message
    let done :=
      (doubling.apply [] false : ExceptT Failure (StateM FaultyMachine) ApplyReport).run.run s
    ((files s).WellFormed ∧ done.1 = .error failure) ∧
      (∃ written, FailsFirst doubling [] false s failure written) ∧
      ∀ place, (files done.2).entryAt? place = (files s).entryAt? place := by
  intro text s failure done
  have hs : (files s).WellFormed := FileTree.wellFormed_of_entries (by decide +kernel)
  have hfailure : done.1 = .error failure := by decide +kernel
  have hno : ∀ e ∈ (files s).entries, ∀ target, e.2 ≠ .link target := by
    simp [s, text, files, Machine.ofFiles, doublingFiles]
  obtain ⟨written, hfails, hsame, -⟩ :=
    apply_failure doubling [] false s done.2 failure hs (Prod.ext hfailure rfl)
  refine ⟨⟨hs, hfailure⟩, ⟨written, hfails⟩, fun place => hsame place fun target hlink => ?_⟩
  have hne : place ≠ [] := by
    rintro rfl
    cases hlink
  exact hno _ (FileTree.mem_entries_of_entryAt? hlink hne) target rfl

/-- A link to the first file is rewritten after it, and comes back with the template that the
first file was for a time. -/
theorem apply_failure_aliased :
    let s := Machine.ofFiles
      (doublingFiles (.link "a.md".toList) (.file (.illFormed [0xFF]) FileTree.fileMode))
    let done := (doubling.apply [] false : ExceptT Failure (StateM Machine) ApplyReport).run.run s
    done.1 = .error (.readFailed (doubling.pathOf "c.md".toList) FileFault.notText.message) ∧
      s.files.read (doubling.filePath "b.md".toList) = .ok (.text ['a']) ∧
      done.2.files.read (doubling.filePath "b.md".toList) = .ok (.text ['a', 'a']) := by
  decide +kernel

end Workspace

end CommandTemplates
