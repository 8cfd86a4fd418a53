import CommandTemplates.Proofs.Workspace.Rollback

/-!
# Histories of a transaction

A transaction goes on after a write that failed, and after a rollback.  What it remembers at any
time belongs to the writes since the last rollback; `Transaction.Underway` relates it to the files
at the start, at the last rollback and now.

## Main Definitions

* `Transaction.Step`, `Transaction.take`, `Transaction.takeAll` — writes and rollbacks, in any order
* `Transaction.keptWrites`, `Transaction.allWrites` — the writes that succeeded, since the last
  rollback and in the whole history
* `FileTree.replay` — a tree after writes, in order
* `FileTree.Restores` — what is left of a tree once everything remembered was brought back

## Main Results

* `FileTree.RolledBack.trans` — rolling back again
* `Transaction.exists_take` — what one step does to a transaction that is under way
* `Transaction.history_restored` — dropping and committing a transaction after any history
-/

namespace CommandTemplates

open FileHost (files)

/-! ### Trees -/

namespace FileTree

variable {t u v : FileTree} {backups backups' : List Backup}

/-- A tree after writes, in order.  Nothing is remembered here, so this says what is to be left of a
history without saying how. -/
def replay (t : FileTree) (writes : List (Text × Text)) : Except FileFault FileTree :=
  writes.foldlM (fun t w => t.replace (.text w.1) (.text w.2)) t

/-- One write more is replayed on what the others left. -/
theorem replay_concat {writes : List (Text × Text)} (h : t.replay writes = .ok u)
    (path content : Text) :
    t.replay (writes ++ [(path, content)]) = u.replace (.text path) (.text content) := by
  rw [replay] at h
  rw [replay, List.foldlM_append, h]
  exact bind_pure (m := Except FileFault) _

/-- What is left of a tree once everything remembered was brought back.  Whatever was no link is as
it was.  Everything is, exactly when no link was written; and every path leads to the content that
it led to, exactly when the links that were written still led to what they had led to at first. -/
structure Restores (t u : FileTree) (backups : List Backup) : Prop where
  entryAt?_eq : ∀ place, (∀ target, t.entryAt? place ≠ some (.link target)) →
    u.entryAt? place = t.entryAt? place
  entryAt?_eq_iff : (∀ place, u.entryAt? place = t.entryAt? place) ↔
    ∀ b ∈ backups, ∀ place target, t.place? (.text b.path) = some place →
      t.entryAt? place ≠ some (.link target)
  yields_iff : (∀ path content, u.Yields path content ↔ t.Yields path content) ↔
    t.LinksKept backups

namespace RolledBack

/-- A tree that is rolled back has the contents that the backups hold. -/
theorem restores (h : RolledBack t u backups) (ht : t.WellFormed) : t.Restores u backups :=
  ⟨fun _ => h.entryAt?_eq, h.entryAt?_eq_iff, h.yields_iff ht⟩

/-- Without backups, rolling back changes nothing. -/
theorem refl (t : FileTree) : RolledBack t t [] := ⟨.refl t, fun _ _ => rfl, nofun⟩

/-- What was brought back once and written again comes back once more. -/
theorem trans (ht : t.WellFormed) (h : RolledBack t u backups) (h' : RolledBack u v backups') :
    RolledBack t v (backups' ++ backups) where
  rewritten := h.rewritten.trans ht h'.rewritten
  untouched place hnone := by
    rw [oldestBackup?_append, Option.or_eq_none_iff,
      ← h.rewritten.oldestBackup?_eq ht backups'] at hnone
    exact (h'.untouched place hnone.2).trans (h.untouched place hnone.1)
  touched place b hsome := by
    rw [oldestBackup?_append, ← h.rewritten.oldestBackup?_eq ht backups'] at hsome
    cases hold : t.oldestBackup? backups place with
    | none =>
      rw [hold, Option.none_or] at hsome
      obtain ⟨mode, hfile, hbefore⟩ := h'.touched place b hsome
      rw [h.untouched place hold] at hbefore
      exact ⟨mode, hfile, hbefore⟩
    | some b₀ =>
      rw [hold, Option.some_or] at hsome
      cases hsome
      obtain ⟨mode, hfile, hbefore⟩ := h.touched place b hold
      -- a file came back the first time, so a file comes back the second time, and it is the same
      rw [h'.entryAt?_eq fun target hlink => nomatch hfile.symm.trans hlink]
      exact ⟨mode, hfile, hbefore⟩

end RolledBack

end FileTree

/-! ### Steps -/

namespace Transaction

/-- One thing that is done in a transaction.  Dropping or committing it is not among the steps, as
it ends the history. -/
inductive Step
  | write (path content : Text)
  | rollback
  deriving DecidableEq, Repr

/-- Steps with what came of them. -/
abbrev Taken := List (Step × Except Failure Unit)

section Run

variable {m : Type → Type} [Monad m] [Host m]

/-- Takes a step in a transaction, which goes on after a write that fails. -/
def take (tx : Transaction) : Step → m (Except Failure Unit × Transaction)
  | .write path content => (write path content).run.run tx
  | .rollback => do return (.ok (), ← tx.rollback)

/-- Takes one step after the other. -/
def takeAll (tx : Transaction) : List Step → m (Taken × Transaction)
  | [] => pure ([], tx)
  | step :: steps => do
    let (result, tx) ← tx.take step
    let (taken, tx) ← takeAll tx steps
    return ((step, result) :: taken, tx)

end Run

/-- The writes to be kept after one more step: a write that succeeds is added, and rolling back
leaves none. -/
def keep (writes : List (Text × Text)) : Step × Except Failure Unit → List (Text × Text)
  | (.write path content, .ok ()) => writes ++ [(path, content)]
  | (.write _ _, .error _) => writes
  | (.rollback, _) => []

/-- The write of a step, if it succeeded; rolling back writes nothing of its own. -/
def written? : Step × Except Failure Unit → Option (Text × Text)
  | (.write path content, .ok ()) => some (path, content)
  | _ => none

/-- The writes that succeeded since the last rollback, in order. -/
def keptWrites (taken : Taken) : List (Text × Text) := taken.foldl keep []

/-- All writes that succeeded, in order. -/
def allWrites (taken : Taken) : List (Text × Text) := taken.filterMap written?

/-- What is kept after one step more. -/
theorem keptWrites_concat (taken : Taken) (last : Step × Except Failure Unit) :
    keptWrites (taken ++ [last]) = keep (keptWrites taken) last :=
  List.foldl_concat keep [] last taken

/-- What was written after one step more. -/
theorem allWrites_concat (taken : Taken) (last : Step × Except Failure Unit) :
    allWrites (taken ++ [last]) = allWrites taken ++ (written? last).toList := by
  rw [allWrites, List.filterMap_append, List.filterMap_cons]
  cases written? last <;> rfl

/-! ### A transaction under way -/

/-- A transaction under way.  `base` are the files after the last rollback; `earlier` is what was
remembered of the files before it, and brought back. -/
structure Underway (t base u : FileTree) (earlier : List Backup) (tx : Transaction)
    (taken : Taken) : Prop where
  uncommitted : tx.committed = false
  rolledBack : t.RolledBack base earlier
  remembers : base.Remembers u tx.backups
  replayed : base.replay (keptWrites taken) = .ok u
  kept_paths : tx.backups.map (·.path) = ((keptWrites taken).map (·.1)).reverse
  all_paths : (tx.backups ++ earlier).map (·.path) = ((allWrites taken).map (·.1)).reverse

namespace Underway

variable {t base u v : FileTree} {earlier : List Backup} {tx : Transaction} {taken : Taken}
  {path content : Text}

/-- A transaction that has just begun. -/
theorem start (t : FileTree) : Underway t t t [] {} [] :=
  ⟨rfl, .refl t, .refl t, rfl, rfl, rfl⟩

/-- The trees on the way are well-formed when the first one is. -/
theorem wellFormed (h : Underway t base u earlier tx taken) (ht : t.WellFormed) :
    base.WellFormed ∧ u.WellFormed := by
  have hbase := h.rolledBack.rewritten.wellFormed ht
  exact ⟨hbase, h.remembers.rewritten.wellFormed hbase⟩

/-- The number that a transaction counts is that of the writes that are kept. -/
theorem written_eq (h : Underway t base u earlier tx taken) :
    tx.written = (keptWrites taken).length := by
  have hlength := congrArg List.length h.kept_paths
  rwa [List.length_map, List.length_reverse, List.length_map] at hlength

/-- A write that fails leaves a transaction where it was. -/
theorem fail (h : Underway t base u earlier tx taken) (path content : Text) (failure : Failure) :
    Underway t base u earlier tx (taken ++ [(.write path content, .error failure)]) where
  uncommitted := h.uncommitted
  rolledBack := h.rolledBack
  remembers := h.remembers
  replayed := by rw [keptWrites_concat]; exact h.replayed
  kept_paths := by rw [keptWrites_concat]; exact h.kept_paths
  all_paths := by
    rw [allWrites_concat]
    simpa [written?] using h.all_paths

/-- A write that succeeds is replayed and remembered. -/
theorem write (h : Underway t base u earlier tx taken) (ht : t.WellFormed) {before : Octets}
    (hread : u.read (.text path) = .ok before)
    (hreplace : u.replace (.text path) (.text content) = .ok v) :
    Underway t base v earlier (tx.remember ⟨path, before⟩)
      (taken ++ [(.write path content, .ok ())]) where
  uncommitted := h.uncommitted
  rolledBack := h.rolledBack
  remembers := by
    obtain ⟨hbase, hu⟩ := h.wellFormed ht
    obtain ⟨seat, file, mode, hholds⟩ := FileTree.exists_holds_of_read hu hread
    cases (hholds.replace_eq (.text content)).symm.trans hreplace
    exact h.remembers.append hbase (.put hholds)
  replayed := by
    rw [keptWrites_concat]
    exact (FileTree.replay_concat h.replayed path content).trans hreplace
  kept_paths := by
    rw [keptWrites_concat, keep, List.map_append, List.reverse_append, ← h.kept_paths]
    rfl
  all_paths := by
    rw [allWrites_concat]
    simpa [written?, remember] using h.all_paths

/-- A transaction that is rolled back goes on from the tree that this leaves, and its backups count
as earlier ones. -/
theorem rollback (h : Underway t base u earlier tx taken) (ht : t.WellFormed)
    (hrolled : base.RolledBack v tx.backups) :
    Underway t v v (tx.backups ++ earlier) { tx with backups := [] }
      (taken ++ [(.rollback, .ok ())]) where
  uncommitted := h.uncommitted
  rolledBack := h.rolledBack.trans ht hrolled
  remembers := .refl v
  replayed := by rw [keptWrites_concat]; rfl
  kept_paths := by rw [keptWrites_concat]; rfl
  all_paths := by
    rw [allWrites_concat]
    simpa [written?] using h.all_paths

end Underway

end Transaction

/-! ### Histories on a host -/

/-- On a host, a file that can be read can be replaced: no step on the way there fails. -/
def FileHost.Replaces (σ : Type) [Host (StateM σ)] [FileHost σ] : Prop :=
  ∀ (s : σ) (path : Text) (before : Octets), (files s).WellFormed →
    (files s).read (.text path) = .ok before → ¬ Falters path s

/-- The machine replaces every file that it can read. -/
theorem Machine.replaces : FileHost.Replaces Machine := by
  intro s path before hs hread hfalters
  obtain ⟨seat, place, mode, hholds⟩ := FileTree.exists_holds_of_read hs hread
  cases hfalters with
  | makeTemporary h => cases h
  | fill h => cases h
  | setMode h => cases h
  | @persist file fault h =>
    have hpersist : (Host.persist file path : StateM Machine (Except FileFault Unit)).run s = _ :=
      run_change_ok (hholds.persist_eq (.text file.content) file.mode)
    rw [hpersist] at h
    cases h

namespace Transaction

section Host

variable {σ : Type} [Host (StateM σ)] [FileHost σ] {t base : FileTree} {earlier : List Backup}
  {tx : Transaction} {taken : Taken} {s : σ}

/-- A write to a file that cannot be read changes nothing, and every other write succeeds. -/
theorem exists_take_write (hreplaces : FileHost.Replaces σ) (tx : Transaction) (s : σ)
    (hs : (files s).WellFormed) (path content : Text) :
    ∃ result tx' s',
      (tx.take (.write path content) : ExceptT Failure (StateM σ) _).run.run s =
        (.ok (result, tx'), s') ∧
      ((∃ reason, result = .error (.readFailed path reason)) ∧ tx' = tx ∧ files s' = files s ∨
        ∃ before, (files s).read (.text path) = .ok before ∧ result = .ok () ∧
          tx' = tx.remember ⟨path, before⟩ ∧
          (files s).replace (.text path) (.text content) = .ok (files s')) := by
  obtain ⟨result, backups, s', hrun, hcases⟩ := runOn_write tx s path content
  refine ⟨result, _, s', hrun, ?_⟩
  rcases hcases with ⟨reason, rfl, rfl, hsame⟩ |
    ⟨before, hread, ⟨_, s₁, -, -, -, hfiles₁, hfalters⟩ | ⟨rfl, rfl, hreplace⟩⟩
  · exact Or.inl ⟨⟨reason, rfl⟩, rfl, hsame⟩
  · rw [← hfiles₁] at hs hread
    exact absurd hfalters (hreplaces s₁ path before hs hread)
  · exact Or.inr ⟨before, hread, rfl, rfl, hreplace⟩

/-- A step keeps a transaction under way. -/
theorem exists_take (hreplaces : FileHost.Replaces σ) (ht : t.WellFormed)
    (h : Underway t base (files s) earlier tx taken) (step : Step) :
    ∃ result tx' s' base' earlier',
      (tx.take step : ExceptT Failure (StateM σ) _).run.run s = (.ok (result, tx'), s') ∧
      Underway t base' (files s') earlier' tx' (taken ++ [(step, result)]) := by
  obtain ⟨hbase, hs⟩ := h.wellFormed ht
  cases step with
  | write path content =>
    obtain ⟨result, tx', s', hrun,
      ⟨⟨reason, rfl⟩, rfl, hfiles⟩ | ⟨before, hread, rfl, rfl, hreplace⟩⟩ :=
      exists_take_write hreplaces tx s hs path content
    · refine ⟨_, _, s', base, earlier, hrun, ?_⟩
      rw [hfiles]
      exact h.fail path content _
    · exact ⟨_, _, s', base, earlier, hrun, h.write ht hread hreplace⟩
  | rollback =>
    obtain ⟨s', hrun, hrolled⟩ := h.remembers.run_restore hbase
    refine ⟨.ok (), _, s', _, _, ?_, h.rollback ht hrolled⟩
    rw [take, run_bind_of_ok (run_rollback h.uncommitted hrun)]
    rfl

/-- Steps are taken one after the other, and the invariant holds after each of them. -/
theorem exists_takeAll (hreplaces : FileHost.Replaces σ) (ht : t.WellFormed)
    (h : Underway t base (files s) earlier tx taken) (steps : List Step) :
    ∃ taken' tx' s' base' earlier',
      (tx.takeAll steps : ExceptT Failure (StateM σ) _).run.run s = (.ok (taken', tx'), s') ∧
      taken'.map (·.1) = steps ∧
      Underway t base' (files s') earlier' tx' (taken ++ taken') := by
  induction steps generalizing base earlier tx taken s with
  | nil => exact ⟨[], tx, s, base, earlier, rfl, rfl, by rwa [List.append_nil]⟩
  | cons step steps ih =>
    obtain ⟨result, tx₁, s₁, base₁, earlier₁, hstep, h₁⟩ := exists_take hreplaces ht h step
    obtain ⟨taken₂, tx₂, s₂, base₂, earlier₂, hsteps, rfl, h₂⟩ := ih h₁
    refine ⟨(step, result) :: taken₂, tx₂, s₂, base₂, earlier₂, ?_, rfl, ?_⟩
    · rw [takeAll, run_bind_of_ok hstep]
      dsimp only
      rw [run_bind_of_ok hsteps]
      rfl
    · rwa [List.append_assoc] at h₂

/-- A transaction after any history of writes and rollbacks.  It has written as often as a write
succeeded since the last rollback.  If it is committed, the files are what the last rollback left
of those at the start, with these writes in order.  If it is dropped, they are what bringing back
all that was ever written leaves of those at the start.  A write that fails, as every write does
to a path that leads to no file, changes neither the files nor the transaction. -/
theorem history_restored (hreplaces : FileHost.Replaces σ) (s : σ) (hs : (files s).WellFormed)
    (steps : List Step) :
    ∃ taken tx s₁ s₂ base earlier,
      (takeAll {} steps : ExceptT Failure (StateM σ) (Taken × Transaction)).run.run s =
        (.ok (taken, tx), s₁) ∧
      taken.map (·.1) = steps ∧
      tx.written = (keptWrites taken).length ∧
      ((tx.commit : ExceptT Failure (StateM σ) Unit).run.run s₁ = (.ok (), s₁) ∧
        base.replay (keptWrites taken) = .ok (files s₁) ∧ (files s).Restores base earlier) ∧
      ((tx.discard : ExceptT Failure (StateM σ) Unit).run.run s₁ = (.ok (), s₂) ∧
        (files s).Restores (files s₂) (tx.backups ++ earlier)) ∧
      (tx.backups ++ earlier).map (·.path) = ((allWrites taken).map (·.1)).reverse ∧
      ∀ path content, ∃ result tx' s',
        (tx.take (.write path content) : ExceptT Failure (StateM σ) _).run.run s₁ =
          (.ok (result, tx'), s') ∧
        ((∃ reason, result = .error (.readFailed path reason)) ∧ tx' = tx ∧ files s' = files s₁ ∨
          result = .ok () ∧ (files s₁).isFile (.text path) = true) := by
  obtain ⟨taken, tx, s₁, base, earlier, hrun, hsteps, h⟩ :=
    exists_takeAll hreplaces hs (.start (files s)) steps
  obtain ⟨hbase, hs₁⟩ := h.wellFormed hs
  have hnone : ∀ b ∈ ([] : List Backup), (files s₁).read (.text b.path) = .ok b.content := nofun
  obtain ⟨s₂, hdiscard, hrolled⟩ :=
    h.remembers.run_discard hbase tx rfl h.uncommitted hnone (Nat.zero_le 1)
  refine ⟨taken, tx, s₁, s₂, base, earlier, hrun, hsteps, h.written_eq,
    ⟨run_commit tx s₁, h.replayed, h.rolledBack.restores hs⟩,
    ⟨hdiscard, (h.rolledBack.trans hs hrolled).restores hs⟩, h.all_paths, fun path content => ?_⟩
  obtain ⟨result, tx', s', hwrite, hcases⟩ := exists_take_write hreplaces tx s₁ hs₁ path content
  refine ⟨result, tx', s', hwrite, hcases.imp_right ?_⟩
  rintro ⟨before, hread, rfl, -, -⟩
  exact ⟨rfl, FileTree.isFile_iff.mpr ⟨before, hread⟩⟩

end Host

/-! ### A file that is written again and again, and a link -/

/-- A file is written, brought back and written twice; the write to a link that leads nowhere fails.
Nothing is left of that when the transaction is dropped. -/
theorem history_restored_rewritten :
    let s := Machine.ofFiles
      (Workspace.doublingFiles (.file (.text ['b']) 0o600) (.link ['x']))
    let a := Workspace.doubling.pathOf "a.md".toList
    let c := Workspace.doubling.pathOf "c.md".toList
    let steps : List Step :=
      [.write a ['x'], .write c ['n'], .rollback, .write a ['y'], .write a ['z']]
    (FileHost.Replaces Machine ∧ s.files.WellFormed) ∧ ∃ taken tx s₁ s₂,
      (takeAll {} steps : ExceptT Failure (StateM Machine) (Taken × Transaction)).run.run s =
        (.ok (taken, tx), s₁) ∧
      keptWrites taken = [(a, ['y']), (a, ['z'])] ∧ tx.written = 2 ∧
      (tx.discard : ExceptT Failure (StateM Machine) Unit).run.run s₁ = (.ok (), s₂) ∧
      ∀ place, s₂.files.entryAt? place = s.files.entryAt? place := by
  intro s a c steps
  have hs : s.files.WellFormed := FileTree.wellFormed_of_entries (by decide +kernel)
  obtain ⟨taken, tx, s₁, s₂, base, earlier, hrun, -, hwritten, -, ⟨hdiscard, hrestores⟩, hpaths,
    -⟩ := history_restored Machine.replaces s hs steps
  have htaken : ((takeAll {} steps :
      ExceptT Failure (StateM Machine) (Taken × Transaction)).run.run s).1.map (·.1) =
      .ok (steps.map fun step => (step, if step = .write c ['n'] then
        .error (.readFailed c FileFault.notFound.message) else .ok ())) := by
    decide +kernel
  rw [hrun] at htaken
  obtain rfl := Except.ok.inj htaken
  refine ⟨⟨Machine.replaces, hs⟩, _, tx, s₁, s₂, hrun, rfl, hwritten, hdiscard,
    hrestores.entryAt?_eq_iff.mpr fun b hb place target hplace hlink => ?_⟩
  -- only the first file was ever written, and it is no link
  have hall : (tx.backups ++ earlier).map (·.path) = [a, a, a] := hpaths
  have hpath : b.path ∈ [a, a, a] := hall ▸ List.mem_map_of_mem hb
  simp only [List.mem_cons, List.not_mem_nil, or_false, or_self] at hpath
  have hseat : (s.files.place? (.text a)).bind s.files.entryAt? =
      some (.file (.text ['a']) FileTree.fileMode) := by
    decide +kernel
  rw [hpath] at hplace
  rw [show s.files.place? (.text a) = some place from hplace, Option.bind_some,
    show s.files.entryAt? place = some (.link target) from hlink] at hseat
  cases hseat

/-- A file is written, and then a link to it.  The link comes back as a file that holds what was
written first. -/
theorem history_restored_aliased :
    let s := Machine.ofFiles
      (Workspace.doublingFiles (.link "a.md".toList) (.file (.text ['c']) FileTree.fileMode))
    let a := Workspace.doubling.pathOf "a.md".toList
    let b := Workspace.doubling.pathOf "b.md".toList
    let dropped : ExceptT Failure (StateM Machine) (List (Except Failure Unit)) := do
      let (taken, tx) ← takeAll {} [.write a ['x'], .write b ['y']]
      tx.discard
      return taken.map (·.2)
    s.files.read (.text b) = .ok (.text ['a']) ∧
      (dropped.run.run s).1 = .ok [.ok (), .ok ()] ∧
      (dropped.run.run s).2.files.read (.text b) = .ok (.text ['x']) := by
  decide +kernel

end Transaction

end CommandTemplates
