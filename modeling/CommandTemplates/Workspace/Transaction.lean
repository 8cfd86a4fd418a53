import CommandTemplates.Host.Basic

/-!
# Transactions

A transaction remembers what the files it writes held before, so that all of them can be
brought back.

## Main Definitions

* `Transaction` — what the written files held before
* `Transaction.prepare`, `Transaction.write` — gives a file a new text
* `Transaction.rollback` — brings the files back, the last one first
* `Transaction.discard`, `Transaction.commit` — the end of a transaction

## Design Notes

A file is remembered once for every time it is written, just before the new file is put in its
place. As the newest content is brought back first, the oldest is the one that stays. A file that
cannot be brought back is noted and passed over.
-/

namespace CommandTemplates

/-- What a file held before it was written. -/
structure Backup where
  path : Text
  content : Octets
  deriving DecidableEq, Repr

/-- What the written files held before, the last one first, and whether that is to stay so. -/
structure Transaction where
  backups : List Backup := []
  committed : Bool := false
  deriving DecidableEq, Repr

/-- Work that is part of a transaction, which outlives a failure. -/
abbrev Transactional (m : Type → Type) := ExceptT Failure (StateT Transaction m)

namespace Transaction

variable {m : Type → Type} [Monad m] [Host m]

/-- How often a file was written. -/
def written (t : Transaction) : Nat := t.backups.length

/-- The transaction with one more file to bring back. -/
def remember (t : Transaction) (b : Backup) : Transaction := { t with backups := b :: t.backups }

/-- What is done before a file is remembered: it is read, and a new file with the same mode is
set up beside it. -/
def prepare (path content : Text) : Transactional m (Octets × TemporaryFile) := do
  let before ← Host.orFail (.readFailed path) (← Host.read path)
  let mode ← Host.orFail (.readFailed path) (← Host.mode path)
  let file ← Host.orFail (.writeFailed path) (← Host.makeTemporary (Path.directoryOf path))
  let file ← Host.orFail (.writeFailed path) (← Host.fill file content)
  let file ← Host.orFail (.writeFailed path) (← Host.setMode file mode)
  return (before, file)

/-- Gives a file that is there a new text: a new file with the same mode takes its place. -/
def write (path content : Text) : Transactional m Unit := do
  let (before, file) ← prepare path content
  modify (·.remember ⟨path, before⟩)
  Host.orFail (.writeFailed path) (← Host.persist file path)
  Host.note (.fileWritten path)

/-- Brings files back in order. -/
def restore : List Backup → m Unit
  | [] => pure ()
  | b :: bs => do
    match ← Host.overwrite b.path b.content with
    | .error fault => Host.note (.restoreFailed b.path fault.message)
    | .ok () => pure ()
    restore bs

/-- Brings all files back, and leaves nothing to bring back. -/
def rollback (t : Transaction) : m Transaction :=
  if t.committed then pure t
  else do
    restore t.backups
    return { t with backups := [] }

/-- The end of a transaction: one that is not committed is rolled back. -/
def discard (t : Transaction) : m Unit :=
  if t.committed || t.backups.isEmpty then pure ()
  else do
    Host.note (.rollingBack t.written)
    let _ ← t.rollback

/-- The end of a transaction whose files are to stay as they are. -/
def commit (t : Transaction) : m Unit := discard { t with committed := true }

end Transaction

end CommandTemplates
