import CommandTemplates.Failure
import CommandTemplates.File.Change
import CommandTemplates.File.Listing
import CommandTemplates.Host.Log

/-!
# Hosts

Commands look at files, change them, print and leave notes in a log. A host is a monad in
which all of this can be done.

## Main Definitions

* `Host` — what a command needs of the machine it runs on
* `Host.readText` — a file as text, or the failure to read it
* `Host.orFail` — goes on with what a host gives, or fails in the words of its fault

## Design Notes

The commands are written for every host, so that they can be run on real files and reasoned
about on a `Machine`. Nothing is left of a temporary file that could not be filled, set up or
put in its place.
-/

namespace CommandTemplates

/-- What a command needs of the machine it runs on. -/
class Host (m : Type → Type) where
  /-- The directory where relative paths start. -/
  currentDir : m Text
  isFile : Text → m Bool
  isDir : Text → m Bool
  isThere : Text → m Bool
  /-- The content of a file. -/
  read : Text → m (Except FileFault Octets)
  /-- The permission bits of what a path leads to. -/
  mode : Text → m (Except FileFault Nat)
  /-- Makes a temporary file in a directory. -/
  makeTemporary : Text → m (Except FileFault TemporaryFile)
  /-- Writes a text into a temporary file. -/
  fill : TemporaryFile → Text → m (Except FileFault TemporaryFile)
  /-- Sets the permission bits of a temporary file. -/
  setMode : TemporaryFile → Nat → m (Except FileFault TemporaryFile)
  /-- Puts a temporary file where a path leads. A file or a link that is there goes. -/
  persist : TemporaryFile → Text → m (Except FileFault Unit)
  /-- Writes a content into a file, through links, and makes the file if it is missing. -/
  overwrite : Text → Octets → m (Except FileFault Unit)
  /-- Walks through a directory and all that is below it. -/
  walkDir : Text → m (List WalkStep)
  /-- Prints a text. -/
  print : Text → m Unit
  /-- Leaves a note in the log. -/
  note : LogEvent → m Unit

/-- A monad over a host is a host. -/
instance [MonadLift m n] [Host m] : Host n where
  currentDir := liftM (Host.currentDir : m Text)
  isFile path := liftM (Host.isFile path : m Bool)
  isDir path := liftM (Host.isDir path : m Bool)
  isThere path := liftM (Host.isThere path : m Bool)
  read path := liftM (Host.read path : m (Except FileFault Octets))
  mode path := liftM (Host.mode path : m (Except FileFault Nat))
  makeTemporary path := liftM (Host.makeTemporary path : m (Except FileFault TemporaryFile))
  fill file content := liftM (Host.fill file content : m (Except FileFault TemporaryFile))
  setMode file mode := liftM (Host.setMode file mode : m (Except FileFault TemporaryFile))
  persist file path := liftM (Host.persist file path : m (Except FileFault Unit))
  overwrite path content := liftM (Host.overwrite path content : m (Except FileFault Unit))
  walkDir path := liftM (Host.walkDir path : m (List WalkStep))
  print text := liftM (Host.print text : m Unit)
  note event := liftM (Host.note event : m Unit)

/-- Goes on with what a host gives, or fails in the words of its fault. -/
def Host.orFail {m : Type → Type} [Monad m] [MonadExceptOf Failure m] (failure : Text → Failure) :
    Except FileFault α → m α
  | .error fault => throw (failure fault.message)
  | .ok a => pure a

variable {m : Type → Type} [Monad m] [Host m]

/-- The text of a file. Content that is no text cannot be read. -/
def Host.readText [MonadExceptOf Failure m] (path : Text) : m Text := do
  match ← Host.read path with
  | .error fault => throw (.readFailed path fault.message)
  | .ok (.illFormed _) => throw (.readFailed path FileFault.notText.message)
  | .ok (.text t) => pure t

end CommandTemplates
