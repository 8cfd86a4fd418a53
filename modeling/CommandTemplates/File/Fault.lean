import CommandTemplates.Text.Search

/-!
# Faults of the file system

Why a file could not be read or changed, with the text shown for it.

## Main Definitions

* `FileFault` — the causes
* `FileFault.message` — the text shown, with the number that the system gives the cause
-/

namespace CommandTemplates

/-- Why a file could not be read or changed. -/
inductive FileFault
  | notFound
  | alreadyThere
  | notDirectory
  | isDirectory
  | nameTooLong
  | tooManyLinks
  /-- The content is no text. -/
  | notText
  /-- A name holds a NUL character. -/
  | nulInName
  /-- Whatever else a system reports, in its own words. -/
  | reported (message : Text)
  deriving DecidableEq, Repr

/-- The text shown for a fault. -/
def FileFault.message : FileFault → Text
  | notFound => "No such file or directory (os error 2)".toList
  | alreadyThere => "File exists (os error 17)".toList
  | notDirectory => "Not a directory (os error 20)".toList
  | isDirectory => "Is a directory (os error 21)".toList
  | nameTooLong => "File name too long (os error 36)".toList
  | tooManyLinks => "Too many levels of symbolic links (os error 40)".toList
  | notText => "stream did not contain valid UTF-8".toList
  | nulInName => "file name contained an unexpected NUL byte".toList
  | reported message => message

end CommandTemplates
