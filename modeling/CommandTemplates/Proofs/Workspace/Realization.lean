import CommandTemplates.Proofs.Workspace.Rollback

/-!
# Runs that can be made

What an apply run does was said of the file tree alone, as visits.  On a machine the converse holds
as well: reading does not fail for no reason there, and a file that can be read can be written, so
visits that can be made are what a run does.

## Main Definitions

* `Workspace.Readable` — listed files that are there are texts

## Main Results

* `Workspace.Visits.exists_run_apply` — a run makes the visits that can be made
* `Workspace.Readable.exists_visit` — a file that is a text, or not there, can be visited
-/

namespace CommandTemplates

open FileHost (files)

/-! ### Reading and writing on a machine -/

section Machine

variable {s : Machine} {tx : Transaction} {path text new : Text} {before : Octets}

theorem runOn_read (h : s.files.read (.text path) = .ok before) :
    (Host.read path : ApplyWork Machine (Except FileFault Octets)).runOn tx s =
      (.ok (.ok (.ok before), tx), s) :=
  Transactional.runOn_lift (congrArg (·, s) h)

theorem runOn_readText (h : s.files.read (.text path) = .ok (.text text)) :
    (Host.readText path : ApplyWork Machine Text).runOn tx s = (.ok (.ok text, tx), s) := by
  rw [Host.readText, Transactional.runOn_bind_ok (runOn_read h)]
  rfl

/-- A file that can be read and replaced is written, and remembered. -/
theorem Transaction.exists_runOn_write (tx : Transaction) {t : FileTree}
    (hread : s.files.read (.text path) = .ok before)
    (hreplace : s.files.replace (.text path) (.text new) = .ok t) : ∃ s',
    (Transaction.write path new : ApplyWork Machine Unit).runOn tx s =
      (.ok (.ok (), tx.remember ⟨path, before⟩), s') ∧ s'.files = t := by
  rw [FileTree.replace] at hreplace
  cases hmode : s.files.mode (.text path) with
  | error fault =>
    rw [hmode] at hreplace
    cases hreplace
  | ok mode =>
    rw [hmode] at hreplace
    have hprepare : (Transaction.prepare path new : ApplyWork Machine _).runOn tx s =
        (.ok (.ok (before, ⟨Path.directoryOf path, new, mode⟩), tx), s) := by
      have hasked : (Host.mode path : ApplyWork Machine (Except FileFault Nat)).runOn tx s =
          (.ok (.ok (.ok mode), tx), s) :=
        Transactional.runOn_mode (congrArg (·, s) hmode)
      rw [prepare, Transactional.runOn_orFail_ok (runOn_read hread),
        Transactional.runOn_orFail_ok hasked]
      rfl
    have hpersist : (Host.persist ⟨Path.directoryOf path, new, mode⟩ path :
        ApplyWork Machine (Except FileFault Unit)).runOn (tx.remember ⟨path, before⟩) s =
          (.ok (.ok (.ok ()), tx.remember ⟨path, before⟩), { s with files := t }) :=
      Transactional.runOn_persist (Machine.run_change_ok hreplace)
    obtain ⟨s', hnote, hfiles⟩ := FileHost.runOn_note (tx.remember ⟨path, before⟩)
      { s with files := t } (.fileWritten path)
    refine ⟨s', ?_, hfiles⟩
    rw [write, Transactional.runOn_bind_ok hprepare,
      Transactional.runOn_bind_ok (Transactional.runOn_modify _),
      Transactional.runOn_orFail_ok hpersist]
    exact hnote

end Machine

namespace Workspace

variable {w : Workspace} {dryRun : Bool} {group : Group} {file : Text} {report : FileReport}
  {listed : List (Group × Text)} {reports : List FileReport} {backups : List Backup}
  {t t' : FileTree} {s : Machine}

/-! ### Visits that can be made -/

/-- A visit that can be made is made.  This is the converse of taking a run apart into visits: where
nothing falters, what could be done is done. -/
theorem Visit.exists_runOn (tx : Transaction) (hs : s.files = t)
    (h : Visit w dryRun group file t report backups t') : ∃ s',
    (w.generalizeFile dryRun group file : ApplyWork Machine FileReport).runOn tx s =
      (.ok (.ok report, { tx with backups := backups ++ tx.backups }), s') ∧ s'.files = t' := by
  subst hs
  obtain ⟨s₁, hisFile, hfiles₁⟩ := FileHost.runOn_isFile tx s (w.pathOf file)
  change s₁.files = s.files at hfiles₁
  rw [generalizeFile, Transactional.runOn_bind_ok hisFile]
  cases h with
  | missing hfile =>
    obtain ⟨s₂, hnote, hfiles₂⟩ := FileHost.runOn_note tx s₁ (.skippedMissing file group.name)
    rw [show (files s).isFile (.text (w.pathOf file)) = false from hfile,
      if_neg Bool.false_ne_true, Transactional.runOn_bind_ok hnote]
    exact ⟨s₂, rfl, hfiles₂.trans hfiles₁⟩
  | kept hread hkept =>
    have hfile : (files s).isFile (.text (w.pathOf file)) = true :=
      FileTree.isFile_iff.mpr ⟨_, hread⟩
    rw [← hfiles₁] at hread
    rw [templateOf] at hkept
    rw [hfile, if_pos rfl, Transactional.runOn_bind_ok (runOn_readText hread)]
    dsimp only
    rw [if_neg (mt updated_and_real_iff.mp fun hwrite => hkept.elim hwrite.1 fun hdry =>
      Bool.false_ne_true (hwrite.2.symm.trans hdry))]
    generalize LogEvent.processed file group.name _ _ = event
    obtain ⟨s₂, hnote, hfiles₂⟩ := FileHost.runOn_note tx s₁ event
    rw [Transactional.runOn_bind_ok hnote]
    exact ⟨s₂, rfl, hfiles₂.trans hfiles₁⟩
  | @written content _ hread hchanged hreal hreplace =>
    have hfile : (files s).isFile (.text (w.pathOf file)) = true :=
      FileTree.isFile_iff.mpr ⟨_, hread⟩
    rw [templateOf] at hchanged hreplace
    rw [← hfiles₁] at hread hreplace
    obtain ⟨s₂, hwrite, hfiles₂⟩ := Transaction.exists_runOn_write tx hread hreplace
    rw [hfile, if_pos rfl, Transactional.runOn_bind_ok (runOn_readText hread)]
    dsimp only
    rw [if_pos (updated_and_real_iff.mpr ⟨hchanged, hreal⟩)]
    generalize LogEvent.processed file group.name _ _ = event
    obtain ⟨s₃, hnote, hfiles₃⟩ :=
      FileHost.runOn_note (tx.remember ⟨w.pathOf file, .text content⟩) s₂ event
    rw [Transactional.runOn_bind_ok hwrite, Transactional.runOn_bind_ok hnote]
    exact ⟨s₃, rfl, hfiles₃.trans hfiles₂⟩

/-- A run makes all visits, one after the other, and remembers what they remember. -/
theorem Visits.exists_runOn (tx : Transaction) (hs : s.files = t)
    (h : Visits w dryRun t listed reports backups t') : ∃ s',
    (w.generalizeFiles dryRun listed : ApplyWork Machine (List FileReport)).runOn tx s =
      (.ok (.ok reports, { tx with backups := backups ++ tx.backups }), s') ∧ s'.files = t' := by
  induction h generalizing s tx with
  | nil => exact ⟨s, rfl, hs⟩
  | @cons group file t report backups t₁ listed reports backups' t₂ hvisit _ ih =>
    obtain ⟨s₁, hfile, hs₁⟩ := hvisit.exists_runOn tx hs
    obtain ⟨s₂, hfiles, hs₂⟩ := ih { tx with backups := backups ++ tx.backups } hs₁
    refine ⟨s₂, ?_, hs₂⟩
    rw [generalizeFiles_cons, Transactional.runOn_bind_ok hfile,
      Transactional.runOn_bind_ok hfiles, List.append_assoc]
    rfl

/-- A run makes the visits that can be made, and reports them. -/
theorem Visits.exists_run_apply {only : List Text} (honly : ∀ name ∈ only, w.rules.Knows name)
    (h : Visits w dryRun s.files (Group.listing (w.rules.chosen only)) reports backups t') :
    ∃ s', (w.apply only dryRun : ExceptT Failure (StateM Machine) ApplyReport).run.run s =
      (.ok ⟨dryRun, reports⟩, s') ∧ s'.files = t' := by
  obtain ⟨s₁, hrun, hfiles₁⟩ := h.exists_runOn {} rfl
  obtain ⟨s₂, hnote, hfiles₂⟩ :=
    FileHost.run_note (.committing (Transaction.written { backups := backups ++ [] })) s₁
  refine ⟨s₂, ?_, hfiles₂.trans hfiles₁⟩
  rw [apply, RuleSet.select_eq_ok_iff.mpr ⟨honly, rfl⟩]
  dsimp only
  rw [run_bind_of_ok hrun]
  dsimp only
  rw [run_bind_of_ok (Host.run_note hnote)]
  rfl

/-- Visits that each can be made without writing can be made one after the other. -/
theorem visits_of_dry
    (h : List.Forall₂ (fun l report => Visit w true l.1 l.2 t report [] t) listed reports) :
    Visits w true t listed reports [] t := by
  induction h with
  | nil => exact .nil
  | cons hvisit _ ih => exact .cons hvisit ih

/-! ### Files that can be visited -/

/-- Every listed file that is there is a text.  The others are skipped. -/
def Readable (w : Workspace) (t : FileTree) (listed : List (Group × Text)) : Prop :=
  ∀ l ∈ listed, t.isFile (w.filePath l.2) = true →
    ∃ text, t.read (w.filePath l.2) = .ok (.text text)

/-- A file that is a text, or not there, can be visited. -/
theorem Readable.exists_visit (ht : t.WellFormed) (h : w.Readable t ((group, file) :: listed)) :
    ∃ report backups t', Visit w dryRun group file t report backups t' := by
  cases hfile : t.isFile (w.filePath file) with
  | false => exact ⟨_, _, _, .missing hfile⟩
  | true =>
    obtain ⟨text, hread⟩ := h _ List.mem_cons_self hfile
    by_cases hkept : (w.templateOf group text).content = text ∨ dryRun = true
    · exact ⟨_, _, _, .kept hread hkept⟩
    · rw [not_or, Bool.not_eq_true] at hkept
      obtain ⟨seat, place, mode, hholds⟩ := FileTree.exists_holds_of_read ht hread
      exact ⟨_, _, _, .written hread hkept.1 hkept.2 (hholds.replace_eq _)⟩

end Workspace

end CommandTemplates
