import CommandTemplates.CommandLine.Run

/-!
# The program

Runs the command line on the files of this machine.

## Main Definitions

* `Terminal` — the host of the program
* `main` — reads the environment, runs the command line, sets the exit code

## Design Notes

A temporary file is kept in memory, and written in the place of the old one, which keeps its
mode. A link is removed first, so that a file takes its place.
-/

namespace CommandTemplates

/-- The host of the program: this machine, with a log that shows levels up to a limit. -/
abbrev Terminal := ReaderT (Option LogLevel) IO

namespace Terminal

/-- A text as a path of the system. -/
def filePath (path : Text) := System.mkFilePath [String.ofList path]

/-- A fault in the words of the system. -/
def faultOf (e : IO.Error) : FileFault :=
  match e with
  | .noFileOrDirectory _ code details => numbered code details
  | .inappropriateType _ code details => numbered code details
  | .permissionDenied _ code details => numbered code details
  | .alreadyExists _ code details => numbered code details
  | .resourceExhausted _ code details => numbered code details
  | .noSuchThing _ code details => numbered code details
  | .invalidArgument _ code details => numbered code details
  | .otherError code details => numbered code details
  | .illegalOperation code details => numbered code details
  | .resourceBusy code details => numbered code details
  | .hardwareFault code details => numbered code details
  | e => .reported e.toString.toList
where
  /-- The words and the number of a fault. -/
  numbered (code : UInt32) (details : String) : FileFault :=
    .reported (details.toList ++ " (os error ".toList ++ Text.ofNat code.toNat ++ [')'])

/-- Runs an action, whose error is a fault. -/
def attempt (action : IO α) : IO (Except FileFault α) :=
  try return .ok (← action) catch e => return .error (faultOf e)

/-- The kind of what a path leads to, through links. -/
def kind? (path : Text) : IO (Option IO.FS.FileType) :=
  try return some (← (filePath path).metadata).type catch _ => return none

/-- Whether a path is a link. -/
def isLink (path : Text) : IO Bool :=
  try
    match (← (filePath path).symlinkMetadata).type with
    | .symlink => return true
    | _ => return false
  catch _ => return false

/-- Writes a content to a file. -/
def writeContent (path : Text) (content : Octets) : IO Unit :=
  IO.FS.writeBinFile (filePath path) ⟨content.bytes.toArray⟩

/-- Walks through what is below a directory. -/
partial def walkBelow (path : Text) : IO (List WalkStep) := do
  match ← attempt (filePath path).readDir with
  | .error fault => return [.error (.of (.text path) fault)]
  | .ok entries =>
    let steps ← entries.toList.mapM fun entry => do
      let path := Path.join path entry.fileName.toList
      match ← attempt (filePath path).symlinkMetadata with
      | .error fault => return [.error (.of (.text path) fault)]
      | .ok found =>
        match found.type with
        | .dir => return .ok ⟨.text path, false⟩ :: (← walkBelow path)
        | .file => return [.ok ⟨.text path, true⟩]
        | _ => return [.ok ⟨.text path, false⟩]
    return steps.flatten

/-- Walks through what a path leads to. A link is followed to a directory. -/
def walkDirAt (path : Text) : IO (List WalkStep) := do
  let failing (fault : FileFault) : List WalkStep := [.error (.of (.text path) fault)]
  match ← attempt (filePath path).symlinkMetadata, ← attempt (filePath path).metadata with
  | .error fault, _ => return failing fault
  | .ok here, there =>
    match here.type, there with
    | .symlink, .error fault => return failing fault
    | .file, _ => return [.ok ⟨.text path, true⟩]
    | _, .ok there =>
      match there.type with
      | .dir => return .ok ⟨.text path, false⟩ :: (← walkBelow path)
      | _ => return [.ok ⟨.text path, false⟩]
    | _, .error _ => return [.ok ⟨.text path, false⟩]

instance : Host Terminal where
  currentDir := return (← IO.currentDir).toString.toList
  isFile path := return match ← kind? path with
    | some .file => true
    | _ => false
  isDir path := return match ← kind? path with
    | some .dir => true
    | _ => false
  isThere path := return (← kind? path).isSome
  read path := attempt do
    return Octets.ofBytes (← IO.FS.readBinFile (filePath path)).toList
  mode path := attempt do
    let _ ← (filePath path).metadata
    return FileTree.fileMode
  makeTemporary directory := attempt do
    let _ ← (filePath directory).readDir
    return { directory }
  fill file content := return .ok { file with content }
  setMode file mode := return .ok { file with mode }
  persist file path := attempt do
    if ← isLink path then IO.FS.removeFile (filePath path)
    writeContent path (.text file.content)
  overwrite path content := attempt (writeContent path content)
  walkDir path := walkDirAt path
  print text := IO.print (String.ofList text)
  note event := do
    if event.isShown (← read) then IO.eprintln (String.ofList event.line)

end Terminal

end CommandTemplates

open CommandTemplates in
/-- Runs the command line and sets the exit code. -/
def main (args : List String) : IO UInt32 := do
  let names := ["TEMPLATIZE_WORKSPACE", "RUST_LOG", "CLICOLOR_FORCE", "NO_COLOR", "CLICOLOR"]
  let settings ← names.filterMapM fun name => do
    return (← IO.getEnv name).map fun value => (name, value.toList)
  let environment := Environment.read (fun name => settings.lookup name)
    (← (← IO.getStdout).isTty)
  let words := args.map (·.toList)
  let outcome ← (runCommandLine environment words : Terminal Outcome).run
    (logLimit environment words)
  match outcome.errorLine? with
  | some line => IO.eprintln (String.ofList line)
  | none => pure ()
  return outcome.exitCode.toUInt32
