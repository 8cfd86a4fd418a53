import CommandTemplates.Document.Template
import CommandTemplates.Report.Json
import CommandTemplates.Report.Style

/-!
# The report of an apply run

What happened to every listed file, and how it is shown.

## Main Definitions

* `FileStatus`, `FileReport`, `ApplyReport` — the report
* `ApplyReport.items` — the items that are printed, in order
* `ApplyReport.summary` — the closing line
* `ApplyReport.printed`, `ApplyReport.json` — the report as text and as JSON

## Design Notes

A group is named once before its first file. Whether a file opens a group is decided by
the file before it alone, so the files of a group have to stand together.
-/

namespace CommandTemplates

open Report (Style Json)

/-- What happened to a file. -/
inductive FileStatus
  /-- Its text changed, or would change in a dry run. -/
  | updated
  /-- It is a template already. -/
  | unchanged
  /-- It does not exist. -/
  | skipped
  deriving DecidableEq, Repr

/-- What happened to one file. -/
structure FileReport where
  file : Text
  group : Text
  status : FileStatus
  noticeAdded : Bool
  guideAdded : Bool
  replacements : List ReplacementCount
  deriving DecidableEq, Repr

/-- What happened in a run. -/
structure ApplyReport where
  dryRun : Bool
  files : List FileReport
  deriving DecidableEq, Repr

namespace FileStatus

/-- The word for a status in a JSON report. -/
def word : FileStatus → Text
  | updated => "updated".toList
  | unchanged => "unchanged".toList
  | skipped => "skipped".toList

/-- The name of a status in the log. -/
def logName : FileStatus → Text
  | updated => "Updated".toList
  | unchanged => "Unchanged".toList
  | skipped => "Skipped".toList

/-- The words for a status after the name of a file. -/
def label (color dryRun : Bool) : FileStatus → Text
  | updated => Style.green.apply color (if dryRun then "would update" else "✓ updated").toList
  | unchanged => Style.dim.apply color "unchanged".toList
  | skipped => Style.yellow.apply color "skipped (not found)".toList

end FileStatus

namespace FileReport

/-- The report of a listed file that does not exist. -/
def missing (file : Text) (group : Group) : FileReport where
  file := file
  group := group.name
  status := .skipped
  noticeAdded := false
  guideAdded := false
  replacements := []

/-- The report of a file that a template was made of. -/
def ofTemplate (file : Text) (group : Group) (status : FileStatus) (t : Template) : FileReport where
  file := file
  group := group.name
  status := status
  noticeAdded := t.noticeAdded
  guideAdded := t.guideAdded
  replacements := t.replacements

/-- How many matches were replaced in the file. -/
def replaced (f : FileReport) : Nat := ReplacementCount.total f.replacements

/-- What was done to an updated file, in words. -/
def details (f : FileReport) : List Text :=
  (if 0 < f.replaced then [Text.ofNat f.replaced ++ " replacement(s)".toList] else []) ++
    (if f.noticeAdded then ["notice".toList] else []) ++
    (if f.guideAdded then ["guide".toList] else [])

/-- The line of a file. -/
def line (f : FileReport) (color dryRun : Bool) : Text :=
  let extra : Text :=
    if f.status = .updated ∧ f.details ≠ [] then
      " (".toList ++ List.intercalate ", ".toList f.details ++ [')']
    else []
  "  ".toList ++ Style.bold.apply color f.file ++ [' '] ++ f.status.label color dryRun ++ extra

/-- The report of a file as JSON. -/
def json (f : FileReport) : Json :=
  .object [
    ("file".toList, .string f.file),
    ("group".toList, .string f.group),
    ("status".toList, .string f.status.word),
    ("notice_added".toList, .bool f.noticeAdded),
    ("guide_added".toList, .bool f.guideAdded),
    ("replacements".toList, .array (f.replacements.map fun c =>
      .object [
        ("from".toList, .string c.replacement.literal),
        ("to".toList, .string c.replacement.substitute),
        ("count".toList, .number c.count)]))]

end FileReport

/-- The line of one replacement in a verbose report. -/
def ReplacementCount.line (c : ReplacementCount) (color : Bool) : Text :=
  "      ".toList ++ Style.red.apply color c.replacement.literal ++ " → ".toList ++
    Style.green.apply color c.replacement.substitute ++ " ×".toList ++ Text.ofNat c.count

/-- What is printed of a report before the summary. -/
inductive ReportItem
  | group (name : Text)
  | file (f : FileReport)
  | replacement (c : ReplacementCount)
  deriving DecidableEq, Repr

namespace ApplyReport

/-- What a dry run puts before header and summary. -/
def dryRunMark (dryRun : Bool) : Text := if dryRun then "[DRY RUN] ".toList else []

/-- The opening line of a run. -/
def header (dir source : Text) (dryRun : Bool) : Text :=
  dryRunMark dryRun ++ "Generalizing command files in ".toList ++ dir ++ " (".toList ++ source ++
    [')']

/-- How many files have a status. -/
def count (r : ApplyReport) (status : FileStatus) : Nat :=
  r.files.countP (·.status = status)

/-- The closing line of a run. -/
def summary (r : ApplyReport) : Text :=
  dryRunMark r.dryRun ++ (if r.dryRun then "Would update " else "Updated ").toList ++
    Text.ofNat (r.count .updated) ++ " file(s), ".toList ++ Text.ofNat (r.count .unchanged) ++
    " unchanged, ".toList ++ Text.ofNat (r.count .skipped) ++ " skipped".toList

/-- The items for files, given the group of the file before them. -/
def itemsAfter (verbose : Bool) : Option Text → List FileReport → List ReportItem
  | _, [] => []
  | previous, f :: files =>
    (if previous = some f.group then [] else [.group f.group]) ++ [.file f] ++
      (if verbose then f.replacements.map .replacement else []) ++
      itemsAfter verbose (some f.group) files

/-- The items that are printed before the summary. -/
def items (r : ApplyReport) (verbose : Bool) : List ReportItem :=
  itemsAfter verbose none r.files

/-- The line of an item. -/
def itemLine (r : ApplyReport) (color : Bool) : ReportItem → Text
  | .group name => Style.boldCyan.apply color name
  | .file f => f.line color r.dryRun
  | .replacement c => c.line color

/-- The lines of a report: its items, an empty line and the summary. -/
def lines (r : ApplyReport) (color verbose : Bool) : List Text :=
  (r.items verbose).map (r.itemLine color) ++ [[], r.summary]

/-- A report as it is printed. -/
def printed (r : ApplyReport) (color verbose : Bool) : Text :=
  (r.lines color verbose).flatMap (· ++ ['\n'])

/-- A report as JSON. -/
def json (r : ApplyReport) : Json :=
  .object [
    ("dry_run".toList, .bool r.dryRun),
    ("files".toList, .array (r.files.map FileReport.json))]

end ApplyReport

end CommandTemplates
