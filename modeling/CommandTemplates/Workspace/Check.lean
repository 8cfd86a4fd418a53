import CommandTemplates.Report.Check
import CommandTemplates.Workspace.Apply
import CommandTemplates.Workspace.Search

/-!
# Checking the files

A check reports what the rules would still change, and changes nothing.

## Main Definitions

* `Workspace.auditFile` — the finding of one file, if there is one
* `Workspace.check` — the findings of the listed files, or of every Markdown file

## Design Notes

A file is audited for the literals of its own group. When every Markdown file is checked,
and for a file that no group lists, the literals of all groups count.
-/

namespace CommandTemplates.Workspace

variable {m : Type → Type} [Monad m] [Host m]

/-- The literals that a file is audited for. -/
def literalsFor (w : Workspace) (all : Bool) : Option Group → List Text
  | some group => if all then w.rules.allLiterals else group.literals
  | none => w.rules.allLiterals

/-- The finding of one file, if there is one. -/
def auditFile (w : Workspace) (all : Bool) (file : Text) :
    ExceptT Failure m (Option CheckEntry) := do
  let group := w.rules.groupFor file
  let content ← Host.readText (w.pathOf file)
  let found := audit content (w.literalsFor all group) group
  return if found.isClean then none else some ⟨file, group.map (·.name), found⟩

/-- The listed files that are there, in order. -/
def listedFiles (w : Workspace) : m (List Text) :=
  (w.rules.groups.flatMap (·.files)).filterM fun file => Host.isFile (w.pathOf file)

/-- Audits the listed files, or every Markdown file. -/
def check (w : Workspace) (all : Bool) : ExceptT Failure m CheckReport := do
  let (files, unreadable) ←
    if all then do
      let found ← MarkdownFiles.search w.commandsDir
      pure (found.names, found.unreadable)
    else do
      pure (← w.listedFiles, [])
  let entries ← files.mapM (w.auditFile all)
  return {
    checked := files.length
    findings := entries.filterMap id
    unreadable := unreadable }

end CommandTemplates.Workspace
