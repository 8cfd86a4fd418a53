import CommandTemplates.Workspace.Basic
import CommandTemplates.Workspace.Transaction

/-!
# Applying the rules

Every listed file becomes a template, or none does.

## Main Definitions

* `Workspace.generalizeFile` — makes one file a template and reports it
* `Workspace.apply` — makes templates of the files of the chosen groups

## Design Notes

A dry run differs from a real one in that it does not write. A file whose text would stay
the same is never written.
-/

namespace CommandTemplates

/-- The files of groups, each with its group, in the order they are visited. -/
def Group.listing (groups : List Group) : List (Group × Text) :=
  groups.flatMap fun group => group.files.map (group, ·)

namespace Workspace

variable {m : Type → Type} [Monad m] [Host m]

/-- Makes a listed file a template and reports it. -/
def generalizeFile (w : Workspace) (dryRun : Bool) (group : Group) (file : Text) :
    Transactional m FileReport := do
  let path := w.pathOf file
  if ← Host.isFile path then
    let content ← Host.readText path
    let template := group.generalize w.rules.notice content
    let status := if template.content = content then FileStatus.unchanged else .updated
    if status = .updated ∧ !dryRun then
      Transaction.write path template.content
    Host.note (.processed file group.name status template.replaced)
    return .ofTemplate file group status template
  else
    Host.note (.skippedMissing file group.name)
    return .missing file group

/-- Makes listed files templates, in order. -/
def generalizeFiles (w : Workspace) (dryRun : Bool) (listed : List (Group × Text)) :
    Transactional m (List FileReport) :=
  listed.mapM fun l => w.generalizeFile dryRun l.1 l.2

/-- Makes templates of the files of the chosen groups and reports them. On a failure all
files are brought back. -/
def apply (w : Workspace) (only : List Text) (dryRun : Bool) : ExceptT Failure m ApplyReport := do
  match w.rules.select only with
  | .error name => throw (.unknownGroup name)
  | .ok groups =>
    let (result, transaction) ← (w.generalizeFiles dryRun (Group.listing groups)).run.run {}
    match result with
    | .error failure =>
      transaction.discard
      throw failure
    | .ok files =>
      Host.note (.committing transaction.written)
      transaction.commit
      return ⟨dryRun, files⟩

end Workspace

end CommandTemplates
