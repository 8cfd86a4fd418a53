import CommandTemplates.Proofs.Host.FileHost
import CommandTemplates.Workspace.Apply
import Mathlib.Logic.Basic

/-!
# Visits

An apply run visits the listed files one after the other.  `Workspace.Visit` says what a visit
can do and `Workspace.Stuck` how it can fail, in terms of the file tree alone; the host drops out
here, and with it the monads.

## Main Definitions

* `Workspace.Visit` — a visit that succeeds: its report, what it remembers, the files after it
* `Workspace.Stuck` — a visit that fails, and what it remembers nevertheless
* `Workspace.Visits` — visits of several files, in order

## Main Results

* `Workspace.generalizeFile_cases` — these are the things that can happen to a file
* `Workspace.visits_of_generalizeFiles`, `Workspace.exists_failing_of_generalizeFiles` — a run is
  visits of all files, or of some up to one that fails
-/

namespace CommandTemplates

open FileHost (files)

variable {σ : Type} [Host (StateM σ)] [FileHost σ]

/-! ### Reading and writing in a transaction -/

/-- The file of a path is read as text, or the failure names the path. -/
theorem Host.runOn_readText (tx : Transaction) (s : σ) (path : Text) : ∃ result s',
    (Host.readText path : ApplyWork σ Text).runOn tx s = (.ok (result, tx), s') ∧
      files s' = files s ∧
      ((∃ content, result = .ok content ∧ (files s).read (.text path) = .ok (.text content)) ∨
        ∃ reason, result = .error (.readFailed path reason)) := by
  obtain ⟨read, s', hrun, hfiles, hread⟩ := FileHost.runOn_read tx s path
  rw [Host.readText, Transactional.runOn_bind_ok hrun]
  rcases read with fault | (content | bytes)
  · exact ⟨_, s', rfl, hfiles, Or.inr ⟨_, rfl⟩⟩
  · refine ⟨_, s', rfl, hfiles, Or.inl ⟨content, rfl, ?_⟩⟩
    rcases hread with ⟨fault, hfault⟩ | hread
    · cases hfault
    · exact hread.symm
  · exact ⟨_, s', rfl, hfiles, Or.inr ⟨_, rfl⟩⟩

/-- A file is read and a new one is set up, or the failure names the path.  No file changes, and
nothing is remembered. -/
theorem Transaction.runOn_prepare (tx : Transaction) (s : σ) (path new : Text) : ∃ result s',
    (Transaction.prepare path new : ApplyWork σ (Octets × TemporaryFile)).runOn tx s =
      (.ok (result, tx), s') ∧ files s' = files s ∧
      ((∃ reason, result = .error (.readFailed path reason)) ∨
        ∃ before, (files s).read (.text path) = .ok before ∧
          ((∃ (reason : Text) (s₁ : σ), result = .error (.writeFailed path reason) ∧
              files s₁ = files s ∧ FileHost.Falters path s₁) ∨
            ∃ directory mode, (files s).mode (.text path) = .ok mode ∧
              result = .ok (before, ⟨directory, new, mode⟩))) := by
  obtain ⟨read, s₁, hread, hfiles₁, hcases⟩ := FileHost.runOn_read tx s path
  rcases read with fault | before
  · exact ⟨_, s₁, Transactional.runOn_orFail_error hread, hfiles₁, Or.inl ⟨_, rfl⟩⟩
  have hbefore := (hcases.resolve_left fun ⟨_, hno⟩ => nomatch hno).symm
  rw [Transaction.prepare, Transactional.runOn_orFail_ok hread]
  obtain ⟨found, s₂, hfound, hfiles₂, hcases⟩ := FileHost.run_mode path s₁
  rw [hfiles₁] at hfiles₂ hcases
  rcases found with fault | mode
  · exact ⟨_, s₂, Transactional.runOn_orFail_error (Transactional.runOn_mode hfound), hfiles₂,
      Or.inl ⟨_, rfl⟩⟩
  have hmode := (hcases.resolve_left fun ⟨_, hno⟩ => nomatch hno).symm
  rw [Transactional.runOn_orFail_ok (Transactional.runOn_mode hfound)]
  -- from here on the file could be read, and what fails is writing the new one
  obtain ⟨made, s₃, hmade, hfiles₃⟩ := FileHost.run_makeTemporary (Path.directoryOf path) s₂
  rw [hfiles₂] at hfiles₃
  rcases made with fault | file
  · exact ⟨_, s₃,
      Transactional.runOn_orFail_error (Transactional.runOn_makeTemporary hmade), hfiles₃,
      Or.inr ⟨before, hbefore, Or.inl ⟨_, s₂, rfl, hfiles₂,
        .makeTemporary (congrArg Prod.fst hmade)⟩⟩⟩
  rw [Transactional.runOn_orFail_ok (Transactional.runOn_makeTemporary hmade)]
  obtain ⟨filled, s₄, hfilled, hfiles₄, ⟨fault, rfl⟩ | rfl⟩ := FileHost.run_fill file new s₃
  all_goals rw [hfiles₃] at hfiles₄
  · exact ⟨_, s₄, Transactional.runOn_orFail_error (Transactional.runOn_fill hfilled), hfiles₄,
      Or.inr ⟨before, hbefore, Or.inl ⟨_, s₃, rfl, hfiles₃, .fill (congrArg Prod.fst hfilled)⟩⟩⟩
  rw [Transactional.runOn_orFail_ok (Transactional.runOn_fill hfilled)]
  obtain ⟨set, s₅, hset, hfiles₅, ⟨fault, rfl⟩ | rfl⟩ :=
    FileHost.run_setMode { file with content := new } mode s₄
  all_goals rw [hfiles₄] at hfiles₅
  · exact ⟨_, s₅, Transactional.runOn_orFail_error (Transactional.runOn_setMode hset), hfiles₅,
      Or.inr ⟨before, hbefore, Or.inl ⟨_, s₄, rfl, hfiles₄, .setMode (congrArg Prod.fst hset)⟩⟩⟩
  · exact ⟨_, s₅, Transactional.runOn_orFail_ok (Transactional.runOn_setMode hset), hfiles₅,
      Or.inr ⟨before, hbefore, Or.inr ⟨file.directory, mode, hmode, rfl⟩⟩⟩

/-- A file is written and remembered, or the failure names the path and no file changes.  It is
remembered just before the new file is put in place, and so it may be even if that fails. -/
theorem Transaction.runOn_write (tx : Transaction) (s : σ) (path new : Text) :
    ∃ result backups s',
      (Transaction.write path new : ApplyWork σ Unit).runOn tx s =
        (.ok (result, { tx with backups := backups ++ tx.backups }), s') ∧
      ((∃ reason, result = .error (.readFailed path reason) ∧ backups = [] ∧ files s' = files s) ∨
        ∃ before, (files s).read (.text path) = .ok before ∧
          ((∃ (reason : Text) (s₁ : σ), result = .error (.writeFailed path reason) ∧
              (backups = [] ∨ backups = [⟨path, before⟩]) ∧ files s' = files s ∧
              files s₁ = files s ∧ FileHost.Falters path s₁) ∨
            result = .ok () ∧ backups = [⟨path, before⟩] ∧
              (files s).replace (.text path) (.text new) = .ok (files s'))) := by
  obtain ⟨prepared, s₁, hprepare, hfiles₁, hcases⟩ := Transaction.runOn_prepare tx s path new
  rw [Transaction.write]
  rcases hcases with ⟨reason, rfl⟩ |
    ⟨before, hbefore, ⟨reason, s₂, rfl, hfiles₂, hfalters⟩ | ⟨directory, mode, hmode, rfl⟩⟩
  · exact ⟨_, [], s₁, Transactional.runOn_bind_error hprepare,
      Or.inl ⟨reason, rfl, rfl, hfiles₁⟩⟩
  · exact ⟨_, [], s₁, Transactional.runOn_bind_error hprepare, Or.inr ⟨before, hbefore,
      Or.inl ⟨reason, s₂, rfl, Or.inl rfl, hfiles₁, hfiles₂, hfalters⟩⟩⟩
  · rw [Transactional.runOn_bind_ok hprepare,
      Transactional.runOn_bind_ok (Transactional.runOn_modify _)]
    obtain ⟨put, s₂, hput, ⟨⟨fault, rfl⟩, hsame⟩ | ⟨rfl, hputs⟩⟩ :=
      FileHost.run_persist ⟨directory, new, mode⟩ path s₁
    · rw [hfiles₁] at hsame
      exact ⟨_, [⟨path, before⟩], s₂,
        Transactional.runOn_orFail_error (Transactional.runOn_persist hput),
        Or.inr ⟨before, hbefore, Or.inl ⟨_, s₁, rfl, Or.inr rfl, hsame, hfiles₁,
          .persist (congrArg Prod.fst hput)⟩⟩⟩
    · obtain ⟨s₃, hnote, hfiles₃⟩ :=
        FileHost.runOn_note (tx.remember ⟨path, before⟩) s₂ (.fileWritten path)
      rw [Transactional.runOn_orFail_ok (Transactional.runOn_persist hput)]
      refine ⟨_, [⟨path, before⟩], s₃, hnote, Or.inr ⟨before, hbefore, Or.inr ⟨rfl, rfl, ?_⟩⟩⟩
      rw [hfiles₃, FileTree.replace, hmode, ← hfiles₁]
      exact hputs

/-- Bringing files back is never given up. -/
theorem Transaction.exists_run_restore (backups : List Backup) (s : σ) : ∃ s',
    (Transaction.restore backups : ExceptT Failure (StateM σ) Unit).run.run s = (.ok (), s') := by
  induction backups generalizing s with
  | nil => exact ⟨s, rfl⟩
  | cons b backups ih =>
    rcases hrun : (Host.overwrite b.path b.content : StateM σ (Except FileFault Unit)).run s with
      ⟨fault | done, s₁⟩
    · obtain ⟨s₂, hnote, -⟩ := FileHost.run_note (.restoreFailed b.path fault.message) s₁
      rw [restore, run_bind_of_ok (Host.run_overwrite hrun)]
      dsimp only
      rw [run_bind_of_ok (Host.run_note hnote)]
      exact ih s₂
    · rw [restore, run_bind_of_ok (Host.run_overwrite hrun)]
      exact ih s₁

omit [FileHost σ] in
/-- What rolling back does to the files is what bringing them back does. -/
theorem Transaction.run_rollback {tx : Transaction} {s s' : σ} (hopen : tx.committed = false)
    (h : (restore tx.backups : ExceptT Failure (StateM σ) Unit).run.run s = (.ok (), s')) :
    (tx.rollback : ExceptT Failure (StateM σ) Transaction).run.run s =
      (.ok { tx with backups := [] }, s') := by
  rw [rollback, if_neg (ne_true_of_eq_false hopen), run_bind_of_ok h]
  rfl

/-- Rolling back is never given up: what cannot be restored is noted. -/
theorem Transaction.exists_run_rollback (tx : Transaction) (s : σ) : ∃ tx' s',
    (tx.rollback : ExceptT Failure (StateM σ) Transaction).run.run s = (.ok tx', s') := by
  cases hopen : tx.committed with
  | true =>
    rw [rollback, if_pos hopen]
    exact ⟨tx, s, rfl⟩
  | false =>
    obtain ⟨s', hrun⟩ := exists_run_restore tx.backups s
    exact ⟨_, s', run_rollback hopen hrun⟩

/-- A transaction that is dropped is dropped without a failure. -/
theorem Transaction.exists_run_discard (tx : Transaction) (s : σ) : ∃ s',
    (tx.discard : ExceptT Failure (StateM σ) Unit).run.run s = (.ok (), s') := by
  unfold discard
  split
  · exact ⟨s, rfl⟩
  · obtain ⟨s₁, hnote, -⟩ := FileHost.run_note (.rollingBack tx.written) s
    obtain ⟨tx', s₂, hrollback⟩ := exists_run_rollback tx s₁
    rw [run_bind_of_ok (Host.run_note hnote), run_bind_of_ok hrollback]
    exact ⟨s₂, rfl⟩

omit [FileHost σ] in
/-- A transaction that is committed leaves everything as it is. -/
theorem Transaction.run_commit (tx : Transaction) (s : σ) :
    (tx.commit : ExceptT Failure (StateM σ) Unit).run.run s = (.ok (), s) := rfl

/-! ### Visits -/

namespace Workspace

/-- The file that a listed name stands for, as a path. -/
def filePath (w : Workspace) (file : Text) : Octets := .text (w.pathOf file)

/-- The template made of a document of a group. -/
def templateOf (w : Workspace) (group : Group) (content : Text) : Template :=
  group.generalize w.rules.notice content

/-- What is reported of a file that can be read. -/
def reportOf (w : Workspace) (group : Group) (file content : Text) : FileReport :=
  let template := w.templateOf group content
  .ofTemplate file group (if template.content = content then .unchanged else .updated) template

/-- A visit that succeeds: its report, what it remembers, and the files after it. -/
inductive Visit (w : Workspace) (dryRun : Bool) (group : Group) (file : Text) (t : FileTree) :
    FileReport → List Backup → FileTree → Prop
  | missing (hfile : t.isFile (w.filePath file) = false) :
      Visit w dryRun group file t (.missing file group) [] t
  | kept (hread : t.read (w.filePath file) = .ok (.text content))
      (hkept : (w.templateOf group content).content = content ∨ dryRun = true) :
      Visit w dryRun group file t (w.reportOf group file content) [] t
  | written (hread : t.read (w.filePath file) = .ok (.text content))
      (hchanged : (w.templateOf group content).content ≠ content) (hreal : dryRun = false)
      (hreplace : t.replace (w.filePath file) (.text (w.templateOf group content).content) =
        .ok t') :
      Visit w dryRun group file t (w.reportOf group file content)
        [⟨w.pathOf file, .text content⟩] t'

/-- A visit that fails, and what it remembers nevertheless.  It changes no file.  Writing may fail
before the file is remembered, and after. -/
inductive Stuck (w : Workspace) (dryRun : Bool) (file : Text) (t : FileTree) :
    Failure → List Backup → Prop
  | unreadable (hfile : t.isFile (w.filePath file) = true) (reason : Text) :
      Stuck w dryRun file t (.readFailed (w.pathOf file) reason) []
  | unready (hread : t.read (w.filePath file) = .ok content) (hreal : dryRun = false)
      (reason : Text) :
      Stuck w dryRun file t (.writeFailed (w.pathOf file) reason) []
  | unwritable (hread : t.read (w.filePath file) = .ok content) (hreal : dryRun = false)
      (reason : Text) :
      Stuck w dryRun file t (.writeFailed (w.pathOf file) reason) [⟨w.pathOf file, content⟩]

/-- Visits of several files, in order; what they remember, the last one first. -/
inductive Visits (w : Workspace) (dryRun : Bool) :
    FileTree → List (Group × Text) → List FileReport → List Backup → FileTree → Prop
  | nil : Visits w dryRun t [] [] [] t
  | cons (hvisit : Visit w dryRun group file t report backups t')
      (hvisits : Visits w dryRun t' listed reports backups' t'') :
      Visits w dryRun t ((group, file) :: listed) (report :: reports) (backups' ++ backups) t''

/-- A file is written when its text changes, in a real run. -/
theorem updated_and_real_iff {dryRun : Bool} {template : Template} {content : Text} :
    ((if template.content = content then FileStatus.unchanged else .updated) = .updated ∧
      (!dryRun) = true) ↔ template.content ≠ content ∧ dryRun = false := by
  split <;> simp [*]

/-- All that a visit can do on a host. -/
theorem generalizeFile_cases (w : Workspace) (dryRun : Bool) (group : Group) (file : Text)
    (tx : Transaction) (s : σ) :
    ∃ result backups s',
      (w.generalizeFile dryRun group file : ApplyWork σ FileReport).runOn tx s =
        (.ok (result, { tx with backups := backups ++ tx.backups }), s') ∧
      ((∃ report, result = .ok report ∧
          Visit w dryRun group file (files s) report backups (files s')) ∨
        ∃ failure, result = .error failure ∧
          Stuck w dryRun file (files s) failure backups ∧ files s' = files s) := by
  obtain ⟨s₁, hisFile, hfiles₁⟩ := FileHost.runOn_isFile tx s (w.pathOf file)
  rw [generalizeFile, Transactional.runOn_bind_ok hisFile]
  cases hfile : (files s).isFile (.text (w.pathOf file)) with
  | false =>
    obtain ⟨s₂, hnote, hfiles₂⟩ :=
      FileHost.runOn_note tx s₁ (.skippedMissing file group.name)
    rw [if_neg Bool.false_ne_true, Transactional.runOn_bind_ok hnote]
    refine ⟨_, [], s₂, rfl, Or.inl ⟨_, rfl, ?_⟩⟩
    rw [hfiles₂, hfiles₁]
    exact .missing hfile
  | true =>
    obtain ⟨result, s₂, hread, hfiles₂, hcases⟩ := Host.runOn_readText tx s₁ (w.pathOf file)
    rw [hfiles₁] at hfiles₂ hcases
    rw [if_pos rfl]
    rcases hcases with ⟨content, rfl, hcontent⟩ | ⟨reason, rfl⟩
    · rw [Transactional.runOn_bind_ok hread]
      dsimp only
      by_cases hwrite : (group.generalize w.rules.notice content).content ≠ content ∧ dryRun = false
      · rw [if_pos (updated_and_real_iff.mpr hwrite)]
        obtain ⟨hchanged, rfl⟩ := hwrite
        obtain ⟨written, backups, s₃, hrun, hwritten⟩ := Transaction.runOn_write tx s₂
          (w.pathOf file) (group.generalize w.rules.notice content).content
        rw [hfiles₂] at hwritten
        -- the file cannot be read again, cannot be written, or is written
        rcases hwritten with ⟨reason, rfl, rfl, hsame⟩ |
          ⟨before, hbefore, ⟨reason, _, rfl, rfl | rfl, hsame, -⟩ | ⟨rfl, rfl, hreplace⟩⟩
        · rw [Transactional.runOn_bind_error hrun]
          exact ⟨_, [], s₃, rfl, Or.inr ⟨_, rfl, .unreadable hfile reason, hsame⟩⟩
        · rw [Transactional.runOn_bind_error hrun]
          exact ⟨_, [], s₃, rfl, Or.inr ⟨_, rfl, .unready hbefore rfl reason, hsame⟩⟩
        · rw [Transactional.runOn_bind_error hrun]
          exact ⟨_, _, s₃, rfl, Or.inr ⟨_, rfl, .unwritable hbefore rfl reason, hsame⟩⟩
        · generalize LogEvent.processed file group.name _ _ = event
          obtain ⟨s₄, hnote, hfiles₄⟩ := FileHost.runOn_note
            { tx with backups := [⟨w.pathOf file, before⟩] ++ tx.backups } s₃ event
          rw [Transactional.runOn_bind_ok hrun, Transactional.runOn_bind_ok hnote]
          refine ⟨_, _, s₄, rfl, Or.inl ⟨_, rfl, ?_⟩⟩
          rw [hfiles₄, Except.ok.inj (hbefore.symm.trans hcontent)]
          exact .written hcontent hchanged rfl hreplace
      · -- nothing is written: the text stays the same, or the run is dry
        rw [if_neg (mt updated_and_real_iff.mp hwrite)]
        generalize LogEvent.processed file group.name _ _ = event
        obtain ⟨s₃, hnote, hfiles₃⟩ := FileHost.runOn_note tx s₂ event
        rw [Transactional.runOn_bind_ok hnote]
        refine ⟨_, [], s₃, rfl, Or.inl ⟨_, rfl, ?_⟩⟩
        rw [hfiles₃, hfiles₂]
        refine .kept hcontent ?_
        rw [not_and_or, not_not, Bool.not_eq_false] at hwrite
        exact hwrite
    · rw [Transactional.runOn_bind_error hread]
      exact ⟨_, [], s₂, rfl, Or.inr ⟨_, rfl, .unreadable hfile reason, hfiles₂⟩⟩

/-! ### Runs -/

omit [Host (StateM σ)] [FileHost σ] in
/-- The listed names, in the order they are visited. -/
theorem map_snd_listing (groups : List Group) :
    (Group.listing groups).map (·.2) = groups.flatMap (·.files) := by
  rw [Group.listing, List.map_flatMap]
  simp only [List.map_map, Function.comp_def, List.map_id']

omit [FileHost σ] in
/-- The first file is visited, and then the others. -/
theorem generalizeFiles_cons (w : Workspace) (dryRun : Bool) (group : Group) (file : Text)
    (listed : List (Group × Text)) :
    (w.generalizeFiles dryRun ((group, file) :: listed) :
        ApplyWork σ (List FileReport)) =
      (do
        let report ← w.generalizeFile dryRun group file
        let reports ← w.generalizeFiles dryRun listed
        return report :: reports) := by
  rw [generalizeFiles, List.mapM_cons]
  rfl

variable {w : Workspace} {dryRun : Bool} {listed : List (Group × Text)} {tx tx' : Transaction}
  {s s' : σ}

/-- A run that succeeds is visits of all listed files. -/
theorem visits_of_generalizeFiles {reports : List FileReport}
    (h : (w.generalizeFiles dryRun listed : ApplyWork σ _).runOn tx s =
      (.ok (.ok reports, tx'), s')) :
    ∃ backups, tx' = { tx with backups := backups ++ tx.backups } ∧
      Visits w dryRun (files s) listed reports backups (files s') := by
  induction listed generalizing tx s reports with
  | nil =>
    cases h
    exact ⟨[], rfl, .nil⟩
  | cons l listed ih =>
    obtain ⟨group, file⟩ := l
    rw [generalizeFiles_cons] at h
    obtain ⟨report, tx₁, s₁, hfile, h⟩ := Transactional.runOn_bind_eq_ok h
    obtain ⟨reports, tx₂, s₂, hfiles, h⟩ := Transactional.runOn_bind_eq_ok h
    cases h
    obtain ⟨result, backups, s₁', hfile', hcases⟩ := generalizeFile_cases w dryRun group file tx s
    cases hfile.symm.trans hfile'
    obtain ⟨report', hreport, hvisit⟩ := hcases.resolve_right fun ⟨_, hno, _⟩ => nomatch hno
    cases hreport
    obtain ⟨backups', rfl, hvisits⟩ := ih hfiles
    exact ⟨backups' ++ backups, by rw [List.append_assoc], .cons hvisit hvisits⟩

omit [FileHost σ] in
/-- A run that fails is a run of the files before one at which it fails. -/
theorem exists_failing_of_generalizeFiles {failure : Failure}
    (h : (w.generalizeFiles dryRun listed : ApplyWork σ _).runOn tx s =
      (.ok (.error failure, tx'), s')) :
    ∃ before group file after reports tx₁ s₁, listed = before ++ (group, file) :: after ∧
      (w.generalizeFiles dryRun before : ApplyWork σ _).runOn tx s =
        (.ok (.ok reports, tx₁), s₁) ∧
      (w.generalizeFile dryRun group file : ApplyWork σ _).runOn tx₁ s₁ =
        (.ok (.error failure, tx'), s') := by
  induction listed generalizing tx s with
  | nil => cases h
  | cons l listed ih =>
    obtain ⟨group, file⟩ := l
    rw [generalizeFiles_cons] at h
    rcases Transactional.runOn_bind_eq_error h with hfile | ⟨report, tx₁, s₁, hfile, h⟩
    · exact ⟨[], group, file, listed, [], tx, s, rfl, rfl, hfile⟩
    · rcases Transactional.runOn_bind_eq_error h with hfiles | ⟨reports, tx₂, s₂, hfiles, h⟩
      · obtain ⟨before, group', file', after, reports, tx₂, s₂, rfl, hbefore, hfailing⟩ := ih hfiles
        refine ⟨(group, file) :: before, group', file', after, report :: reports, tx₂, s₂, rfl, ?_,
          hfailing⟩
        rw [generalizeFiles_cons, Transactional.runOn_bind_ok hfile,
          Transactional.runOn_bind_ok hbefore]
        rfl
      · cases h

/-- A run never ends without a result of its own. -/
theorem exists_runOn_generalizeFiles (w : Workspace) (dryRun : Bool)
    (listed : List (Group × Text)) (tx : Transaction) (s : σ) :
    ∃ result tx' s', (w.generalizeFiles dryRun listed : ApplyWork σ (List FileReport)).runOn tx s =
      (.ok (result, tx'), s') := by
  induction listed generalizing tx s with
  | nil => exact ⟨_, _, _, rfl⟩
  | cons l listed ih =>
    obtain ⟨group, file⟩ := l
    obtain ⟨result, backups, s₁, hfile, -⟩ := generalizeFile_cases w dryRun group file tx s
    rw [generalizeFiles_cons]
    cases result with
    | error failure => exact ⟨_, _, _, Transactional.runOn_bind_error hfile⟩
    | ok report =>
      obtain ⟨result, tx₂, s₂, hfiles⟩ := ih { tx with backups := backups ++ tx.backups } s₁
      rw [Transactional.runOn_bind_ok hfile]
      cases result with
      | error failure => exact ⟨_, _, _, Transactional.runOn_bind_error hfiles⟩
      | ok reports =>
        rw [Transactional.runOn_bind_ok hfiles]
        exact ⟨_, _, _, rfl⟩

/-- An apply run that fails names no group, or visits files up to a failure and is discarded. -/
theorem run_apply_eq_error {only : List Text} {failure : Failure}
    (h : (w.apply only dryRun : ExceptT Failure (StateM σ) ApplyReport).run.run s =
      (.error failure, s')) :
    (∃ name, w.rules.select only = .error name ∧ failure = .unknownGroup name ∧ s' = s) ∨
      ∃ groups tx s₁, w.rules.select only = .ok groups ∧
        (w.generalizeFiles dryRun (Group.listing groups) :
            ApplyWork σ (List FileReport)).runOn {} s = (.ok (.error failure, tx), s₁) ∧
        (tx.discard : ExceptT Failure (StateM σ) Unit).run.run s₁ = (.ok (), s') := by
  unfold apply at h
  cases hselect : w.rules.select only with
  | error name =>
    rw [hselect] at h
    cases h
    exact Or.inl ⟨name, rfl, rfl, rfl⟩
  | ok groups =>
    rw [hselect] at h
    obtain ⟨result, tx, s₁, hrun⟩ :=
      exists_runOn_generalizeFiles w dryRun (Group.listing groups) {} s
    rw [run_bind_of_ok hrun] at h
    cases result with
    | error failure' =>
      obtain ⟨s₂, hdiscard⟩ := Transaction.exists_run_discard tx s₁
      dsimp only at h
      rw [run_bind_of_ok hdiscard] at h
      cases h
      exact Or.inr ⟨groups, tx, s₁, rfl, hrun, hdiscard⟩
    | ok reports =>
      obtain ⟨s₂, hnote, -⟩ := FileHost.run_note (.committing tx.written) s₁
      dsimp only at h
      rw [run_bind_of_ok (Host.run_note hnote),
        run_bind_of_ok (Transaction.run_commit tx s₂)] at h
      cases h

/-- An apply run that succeeds visits all listed files of the chosen groups. -/
theorem run_apply_eq_ok {only : List Text} {report : ApplyReport}
    (h : (w.apply only dryRun : ExceptT Failure (StateM σ) ApplyReport).run.run s =
      (.ok report, s')) :
    ∃ groups reports tx s₁, w.rules.select only = .ok groups ∧ report = ⟨dryRun, reports⟩ ∧
      (w.generalizeFiles dryRun (Group.listing groups) : ApplyWork σ (List FileReport)).runOn {} s =
        (.ok (.ok reports, tx), s₁) ∧ files s' = files s₁ := by
  unfold apply at h
  cases hselect : w.rules.select only with
  | error name =>
    rw [hselect] at h
    cases h
  | ok groups =>
    rw [hselect] at h
    obtain ⟨result, tx, s₁, hrun⟩ :=
      exists_runOn_generalizeFiles w dryRun (Group.listing groups) {} s
    rw [run_bind_of_ok hrun] at h
    cases result with
    | error failure =>
      obtain ⟨s₂, hdiscard⟩ := Transaction.exists_run_discard tx s₁
      dsimp only at h
      rw [run_bind_of_ok hdiscard] at h
      cases h
    | ok reports =>
      obtain ⟨s₂, hnote, hfiles⟩ := FileHost.run_note (.committing tx.written) s₁
      dsimp only at h
      rw [run_bind_of_ok (Host.run_note hnote),
        run_bind_of_ok (Transaction.run_commit tx s₂)] at h
      cases h
      exact ⟨groups, reports, tx, s₁, rfl, rfl, hrun, hfiles⟩

end Workspace

end CommandTemplates
