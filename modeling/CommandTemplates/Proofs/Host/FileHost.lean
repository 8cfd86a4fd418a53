import CommandTemplates.Host.Machine
import CommandTemplates.Workspace.Transaction

/-!
# Hosts whose files are a tree

`FileHost` says what commands may rely on when their host keeps its files in a tree: what it
answers is what the tree holds, and what it changes is what the tree changes.  Reading a file and
every step on the way to replacing one may fail at any time, for whatever reason; bringing a file
back fails only if the tree has no place for it.

## Main Definitions

* `FileHost` — the laws of such a host
* `FileHost.Falters` — a host fails on the way to replacing a file
* `FaultyMachine` — a machine on which putting files in place fails as planned
* `ApplyWork`, `Transactional.runOn` — a part of an apply run, and running it on a host
-/

namespace CommandTemplates

/-- A host whose files are a tree.  It can fail to read or to replace a file that is there; then
no file changes.  A temporary file is none of the files until it is put in its place. -/
class FileHost (σ : Type) [Host (StateM σ)] where
  /-- The files on a host. -/
  files : σ → FileTree
  run_isFile (path : Text) (s : σ) : ∃ s',
    (Host.isFile path : StateM σ Bool).run s = ((files s).isFile (.text path), s') ∧
      files s' = files s
  run_read (path : Text) (s : σ) : ∃ result s',
    (Host.read path : StateM σ (Except FileFault Octets)).run s = (result, s') ∧
      files s' = files s ∧
      ((∃ fault, result = .error fault) ∨ result = (files s).read (.text path))
  run_mode (path : Text) (s : σ) : ∃ result s',
    (Host.mode path : StateM σ (Except FileFault Nat)).run s = (result, s') ∧
      files s' = files s ∧
      ((∃ fault, result = .error fault) ∨ result = (files s).mode (.text path))
  run_makeTemporary (directory : Text) (s : σ) : ∃ result s',
    (Host.makeTemporary directory : StateM σ (Except FileFault TemporaryFile)).run s =
      (result, s') ∧ files s' = files s
  run_fill (file : TemporaryFile) (content : Text) (s : σ) : ∃ result s',
    (Host.fill file content : StateM σ (Except FileFault TemporaryFile)).run s = (result, s') ∧
      files s' = files s ∧
      ((∃ fault, result = .error fault) ∨ result = .ok { file with content })
  run_setMode (file : TemporaryFile) (mode : Nat) (s : σ) : ∃ result s',
    (Host.setMode file mode : StateM σ (Except FileFault TemporaryFile)).run s = (result, s') ∧
      files s' = files s ∧
      ((∃ fault, result = .error fault) ∨ result = .ok { file with mode })
  run_persist (file : TemporaryFile) (path : Text) (s : σ) : ∃ result s',
    (Host.persist file path : StateM σ (Except FileFault Unit)).run s = (result, s') ∧
      ((∃ fault, result = .error fault) ∧ files s' = files s ∨
        result = .ok () ∧
          (files s).persist (.text path) (.text file.content) file.mode = .ok (files s'))
  run_overwrite (path : Text) (content : Octets) (s : σ) (t : FileTree)
    (h : (files s).overwrite (.text path) content = .ok t) : ∃ s',
    (Host.overwrite path content : StateM σ (Except FileFault Unit)).run s = (.ok (), s') ∧
      files s' = t
  run_note (event : LogEvent) (s : σ) : ∃ s',
    (Host.note event : StateM σ Unit).run s = ((), s') ∧ files s' = files s

/-- A host fails at one of the steps from a temporary file to the new file at a path. -/
inductive FileHost.Falters {σ : Type} [Host (StateM σ)] (path : Text) (s : σ) : Prop
  | makeTemporary
      (h : ((Host.makeTemporary (Path.directoryOf path) :
        StateM σ (Except FileFault TemporaryFile)).run s).1 = .error fault)
  | fill
      (h : ((Host.fill file content : StateM σ (Except FileFault TemporaryFile)).run s).1 =
        .error fault)
  | setMode
      (h : ((Host.setMode file mode : StateM σ (Except FileFault TemporaryFile)).run s).1 =
        .error fault)
  | persist
      (h : ((Host.persist file path : StateM σ (Except FileFault Unit)).run s).1 = .error fault)

/-! ### Machines -/

namespace Machine

variable {s : Machine} {t : FileTree} {fault : FileFault}

/-- A change that succeeds is made. -/
theorem run_change_ok {f : FileTree → Except FileFault FileTree} (h : f s.files = .ok t) :
    (change f).run s = (.ok (), { s with files := t }) := by
  simp only [change, StateT.run_bind, StateT.run_get, pure_bind, h]
  rfl

/-- A change that fails is not made. -/
theorem run_change_error {f : FileTree → Except FileFault FileTree}
    (h : f s.files = .error fault) : (change f).run s = (.error fault, s) := by
  simp only [change, StateT.run_bind, StateT.run_get, pure_bind, h]
  rfl

/-- The machine keeps the laws of a host, and none of its operations falters. -/
instance : FileHost Machine where
  files := files
  run_isFile _ s := ⟨s, rfl, rfl⟩
  run_read _ s := ⟨_, s, rfl, rfl, Or.inr rfl⟩
  run_mode _ s := ⟨_, s, rfl, rfl, Or.inr rfl⟩
  run_makeTemporary _ s := ⟨_, s, rfl, rfl⟩
  run_fill _ _ s := ⟨_, s, rfl, rfl, Or.inr rfl⟩
  run_setMode _ _ s := ⟨_, s, rfl, rfl, Or.inr rfl⟩
  run_persist file path s := by
    cases h : s.files.persist (.text path) (.text file.content) file.mode with
    | ok t => exact ⟨_, _, run_change_ok h, Or.inr ⟨rfl, rfl⟩⟩
    | error fault => exact ⟨_, _, run_change_error h, Or.inl ⟨⟨fault, rfl⟩, rfl⟩⟩
  run_overwrite _ _ _ _ h := ⟨_, run_change_ok h, rfl⟩
  run_note _ _ := ⟨_, rfl, rfl⟩

end Machine

/-- A machine on which putting files in place fails as planned.  It shows that the laws of a host
leave room for faults. -/
structure FaultyMachine where
  machine : Machine
  /-- What goes wrong the next times that a file is put in place, if anything. -/
  plan : List (Option FileFault)

namespace FaultyMachine

/-- Something that the machine does as ever. -/
def onMachine {α : Type} (x : StateM Machine α) : StateM FaultyMachine α :=
  fun s => ((x.run s.machine).1, { s with machine := (x.run s.machine).2 })

/-- Puts a file in place, unless something goes wrong. -/
def persist (file : TemporaryFile) (path : Text) : StateM FaultyMachine (Except FileFault Unit) :=
  fun s =>
    match s.plan with
    | some fault :: plan => (.error fault, { s with plan := plan })
    | _ => onMachine (Host.persist file path) { s with plan := s.plan.tail }

/-- A machine with faults does as the machine does, apart from the operations in which it falters.
-/
instance : Host (StateM FaultyMachine) where
  currentDir := onMachine Host.currentDir
  isFile path := onMachine (Host.isFile path)
  isDir path := onMachine (Host.isDir path)
  isThere path := onMachine (Host.isThere path)
  read path := onMachine (Host.read path)
  mode path := onMachine (Host.mode path)
  makeTemporary directory := onMachine (Host.makeTemporary directory)
  fill file content := onMachine (Host.fill file content)
  setMode file mode := onMachine (Host.setMode file mode)
  persist := persist
  overwrite path content := onMachine (Host.overwrite path content)
  walkDir path := onMachine (Host.walkDir path)
  print text := onMachine (Host.print text)
  note event := onMachine (Host.note event)

/-- What is done on the machine inside is done with everything else left as it is. -/
theorem run_onMachine {α : Type} {x : StateM Machine α} {s : FaultyMachine} {a : α} {m : Machine}
    (h : x.run s.machine = (a, m)) : (onMachine x).run s = (a, { s with machine := m }) :=
  congrArg (fun r : α × Machine => (r.1, (⟨r.2, s.plan⟩ : FaultyMachine))) h

/-- A machine with faults keeps the laws as well: an operation in which it falters reports a fault
and leaves the files as they are. -/
instance : FileHost FaultyMachine where
  files s := s.machine.files
  run_isFile path s :=
    let ⟨_, hrun, hfiles⟩ := FileHost.run_isFile path s.machine
    ⟨_, run_onMachine hrun, hfiles⟩
  run_read path s :=
    let ⟨_, _, hrun, hfiles⟩ := FileHost.run_read path s.machine
    ⟨_, _, run_onMachine hrun, hfiles⟩
  run_mode path s :=
    let ⟨_, _, hrun, hfiles⟩ := FileHost.run_mode path s.machine
    ⟨_, _, run_onMachine hrun, hfiles⟩
  run_makeTemporary directory s :=
    let ⟨_, _, hrun, hfiles⟩ := FileHost.run_makeTemporary directory s.machine
    ⟨_, _, run_onMachine hrun, hfiles⟩
  run_fill file content s :=
    let ⟨_, _, hrun, hfiles⟩ := FileHost.run_fill file content s.machine
    ⟨_, _, run_onMachine hrun, hfiles⟩
  run_setMode file mode s :=
    let ⟨_, _, hrun, hfiles⟩ := FileHost.run_setMode file mode s.machine
    ⟨_, _, run_onMachine hrun, hfiles⟩
  run_persist file path s := by
    obtain ⟨machine, plan⟩ := s
    -- nothing is planned, nothing is to go wrong this time, or something is
    rcases plan with _ | ⟨_ | fault, plan⟩
    · obtain ⟨result, m, hrun, hfiles⟩ := FileHost.run_persist file path machine
      exact ⟨_, _, run_onMachine (s := ⟨machine, []⟩) hrun, hfiles⟩
    · obtain ⟨result, m, hrun, hfiles⟩ := FileHost.run_persist file path machine
      exact ⟨_, _, run_onMachine (s := ⟨machine, plan⟩) hrun, hfiles⟩
    · exact ⟨.error fault, ⟨machine, plan⟩, rfl, Or.inl ⟨⟨fault, rfl⟩, rfl⟩⟩
  run_overwrite path content s t h :=
    let ⟨_, hrun, hfiles⟩ := FileHost.run_overwrite path content s.machine t h
    ⟨_, run_onMachine hrun, hfiles⟩
  run_note event s :=
    let ⟨_, hrun, hfiles⟩ := FileHost.run_note event s.machine
    ⟨_, run_onMachine hrun, hfiles⟩

end FaultyMachine

/-! ### Running a part of a transaction -/

section Run

variable {σ α β : Type} {x : ExceptT Failure (StateM σ) α} {f : α → ExceptT Failure (StateM σ) β}
  {s s' : σ}

/-- A computation goes on from where the first part of it succeeded. -/
theorem run_bind_of_ok {a : α} (h : x.run.run s = (.ok a, s')) :
    (x >>= f).run.run s = (f a).run.run s' := by
  rw [ExceptT.run_bind, StateT.run_bind, h]
  rfl

/-- What a host does is no failure of the computation, whatever it reports. -/
theorem run_of_lift {y : StateM σ α} {a : α} (h : y.run s = (a, s')) :
    (liftM y : ExceptT Failure (StateM σ) α).run.run s = (.ok a, s') :=
  congrArg (fun r : α × σ => (Except.ok r.1, r.2)) h

variable [Host (StateM σ)]

theorem Host.run_note {event : LogEvent} (h : (Host.note event : StateM σ Unit).run s = ((), s')) :
    (Host.note event : ExceptT Failure (StateM σ) Unit).run.run s = (.ok (), s') :=
  run_of_lift h

theorem Host.run_overwrite {path : Text} {content : Octets} {result : Except FileFault Unit}
    (h : (Host.overwrite path content : StateM σ (Except FileFault Unit)).run s = (result, s')) :
    (Host.overwrite path content : ExceptT Failure (StateM σ) (Except FileFault Unit)).run.run s =
      (.ok result, s') :=
  run_of_lift h

end Run

/-- Work that is part of an apply run.  A failure ends the work, but not the transaction that the
work is part of. -/
abbrev ApplyWork (σ : Type) := Transactional (ExceptT Failure (StateM σ))

/-- Runs a part of a transaction on a host: its result, the transaction and the host after it. -/
def Transactional.runOn {σ α : Type} (x : ApplyWork σ α) (tx : Transaction) (s : σ) :
    Except Failure (Except Failure α × Transaction) × σ :=
  (x.run.run tx).run.run s

namespace Transactional

variable {σ α β : Type} {x : ApplyWork σ α} {f : α → ApplyWork σ β} {tx tx' : Transaction}
  {s s' : σ}

/-- A transaction is changed without the host. -/
theorem runOn_modify (g : Transaction → Transaction) :
    (modify g : ApplyWork σ Unit).runOn tx s = (.ok (.ok (), g tx), s) := rfl

/-- What a host does leaves a transaction as it is. -/
theorem runOn_lift {y : StateM σ α} {a : α} (h : y.run s = (a, s')) :
    (liftM y : ApplyWork σ α).runOn tx s = (.ok (.ok a, tx), s') :=
  congrArg (fun r : α × σ => (Except.ok (Except.ok r.1, tx), r.2)) h

/-- Work goes on with the transaction that the first part of it left. -/
theorem runOn_bind_ok {a : α} (h : x.runOn tx s = (.ok (.ok a, tx'), s')) :
    (x >>= f).runOn tx s = (f a).runOn tx' s' := by
  have hrun : (x.run.run tx).run.run s = (.ok (.ok a, tx'), s') := h
  simp only [runOn, ExceptT.run_bind, StateT.run_bind, hrun]
  rfl

/-- Work that fails leaves the transaction as it was when it failed. -/
theorem runOn_bind_error {failure : Failure} (h : x.runOn tx s = (.ok (.error failure, tx'), s')) :
    (x >>= f).runOn tx s = (.ok (.error failure, tx'), s') := by
  have hrun : (x.run.run tx).run.run s = (.ok (.error failure, tx'), s') := h
  simp only [runOn, ExceptT.run_bind, StateT.run_bind, hrun]
  rfl

section Host

variable [Host (StateM σ)] {path content : Text} {file : TemporaryFile} {mode : Nat}

theorem runOn_mode {result : Except FileFault Nat}
    (h : (Host.mode path : StateM σ (Except FileFault Nat)).run s = (result, s')) :
    (Host.mode path : ApplyWork σ (Except FileFault Nat)).runOn tx s = (.ok (.ok result, tx), s') :=
  runOn_lift h

theorem runOn_makeTemporary {result : Except FileFault TemporaryFile}
    (h : (Host.makeTemporary path : StateM σ (Except FileFault TemporaryFile)).run s =
      (result, s')) :
    (Host.makeTemporary path : ApplyWork σ (Except FileFault TemporaryFile)).runOn tx s =
      (.ok (.ok result, tx), s') :=
  runOn_lift h

theorem runOn_fill {result : Except FileFault TemporaryFile}
    (h : (Host.fill file content : StateM σ (Except FileFault TemporaryFile)).run s =
      (result, s')) :
    (Host.fill file content : ApplyWork σ (Except FileFault TemporaryFile)).runOn tx s =
      (.ok (.ok result, tx), s') :=
  runOn_lift h

theorem runOn_setMode {result : Except FileFault TemporaryFile}
    (h : (Host.setMode file mode : StateM σ (Except FileFault TemporaryFile)).run s =
      (result, s')) :
    (Host.setMode file mode : ApplyWork σ (Except FileFault TemporaryFile)).runOn tx s =
      (.ok (.ok result, tx), s') :=
  runOn_lift h

theorem runOn_persist {result : Except FileFault Unit}
    (h : (Host.persist file path : StateM σ (Except FileFault Unit)).run s = (result, s')) :
    (Host.persist file path : ApplyWork σ (Except FileFault Unit)).runOn tx s =
      (.ok (.ok result, tx), s') :=
  runOn_lift h

end Host

/-- What a host gives is gone on with, when it gives something. -/
theorem runOn_orFail_ok {y : ApplyWork σ (Except FileFault α)} {failure : Text → Failure} {a : α}
    (h : y.runOn tx s = (.ok (.ok (.ok a), tx'), s')) :
    (do let a ← Host.orFail failure (← y); f a).runOn tx s = (f a).runOn tx' s' := by
  rw [runOn_bind_ok h]
  rfl

/-- The fault of a host is what the work fails with, in the words that the step has for it. -/
theorem runOn_orFail_error {y : ApplyWork σ (Except FileFault α)} {failure : Text → Failure}
    {fault : FileFault} (h : y.runOn tx s = (.ok (.ok (.error fault), tx'), s')) :
    (do let a ← Host.orFail failure (← y); f a).runOn tx s =
      (.ok (.error (failure fault.message), tx'), s') := by
  rw [runOn_bind_ok h]
  rfl

/-- A failure of the whole run ends it. -/
theorem runOn_bind_abort {failure : Failure} (h : x.runOn tx s = (.error failure, s')) :
    (x >>= f).runOn tx s = (.error failure, s') := by
  have hrun : (x.run.run tx).run.run s = (.error failure, s') := h
  simp only [runOn, ExceptT.run_bind, StateT.run_bind, hrun]
  rfl

/-- A run of two parts that succeeds is a run of the one and then of the other. -/
theorem runOn_bind_eq_ok {b : β} (h : (x >>= f).runOn tx s = (.ok (.ok b, tx'), s')) :
    ∃ a tx₁ s₁, x.runOn tx s = (.ok (.ok a, tx₁), s₁) ∧
      (f a).runOn tx₁ s₁ = (.ok (.ok b, tx'), s') := by
  rcases hx : x.runOn tx s with ⟨failure | ⟨failure | a, tx₁⟩, s₁⟩
  · rw [runOn_bind_abort hx] at h
    cases h
  · rw [runOn_bind_error hx] at h
    cases h
  · rw [runOn_bind_ok hx] at h
    exact ⟨a, tx₁, s₁, rfl, h⟩

/-- A run of two parts that fails is a run of the one that fails, or of the other after it. -/
theorem runOn_bind_eq_error {failure : Failure}
    (h : (x >>= f).runOn tx s = (.ok (.error failure, tx'), s')) :
    x.runOn tx s = (.ok (.error failure, tx'), s') ∨
      ∃ a tx₁ s₁, x.runOn tx s = (.ok (.ok a, tx₁), s₁) ∧
        (f a).runOn tx₁ s₁ = (.ok (.error failure, tx'), s') := by
  rcases hx : x.runOn tx s with ⟨failure' | ⟨failure' | a, tx₁⟩, s₁⟩
  · rw [runOn_bind_abort hx] at h
    cases h
  · rw [runOn_bind_error hx] at h
    cases h
    exact Or.inl rfl
  · rw [runOn_bind_ok hx] at h
    exact Or.inr ⟨a, tx₁, s₁, rfl, h⟩

end Transactional

namespace FileHost

variable {σ : Type} [Host (StateM σ)] [FileHost σ]

/-- Within a transaction too, asking whether a path is that of a file changes nothing. -/
theorem runOn_isFile (tx : Transaction) (s : σ) (path : Text) : ∃ s',
    (Host.isFile path : ApplyWork σ Bool).runOn tx s =
      (.ok (.ok ((files s).isFile (.text path)), tx), s') ∧ files s' = files s :=
  let ⟨s', hrun, hfiles⟩ := run_isFile path s
  ⟨s', Transactional.runOn_lift hrun, hfiles⟩

/-- A note changes no file and no transaction. -/
theorem runOn_note (tx : Transaction) (s : σ) (event : LogEvent) : ∃ s',
    (Host.note event : ApplyWork σ Unit).runOn tx s = (.ok (.ok (), tx), s') ∧
      files s' = files s :=
  let ⟨s', hrun, hfiles⟩ := run_note event s
  ⟨s', Transactional.runOn_lift hrun, hfiles⟩

/-- A file that is read is the one in the tree, unless the host falters. -/
theorem runOn_read (tx : Transaction) (s : σ) (path : Text) : ∃ result s',
    (Host.read path : ApplyWork σ (Except FileFault Octets)).runOn tx s =
      (.ok (.ok result, tx), s') ∧ files s' = files s ∧
      ((∃ fault, result = .error fault) ∨ result = (files s).read (.text path)) :=
  let ⟨result, s', hrun, hfiles⟩ := run_read path s
  ⟨result, s', Transactional.runOn_lift hrun, hfiles⟩

end FileHost

end CommandTemplates
