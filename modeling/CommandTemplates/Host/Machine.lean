import CommandTemplates.Host.Basic

/-!
# A host of its own

A machine is a file tree together with what was printed and noted so far.

## Main Definitions

* `Machine` — the state
* `Machine.change` — a change of the file tree that may fail, and then changes nothing

## Design Notes

A machine has room for a temporary file wherever one is asked for.
-/

namespace CommandTemplates

/-- Files, what was printed and what was noted, in order. -/
structure Machine where
  files : FileTree
  printed : Text := []
  log : List LogEvent := []
  deriving DecidableEq, Repr

namespace Machine

/-- A machine with these files, on which nothing ran yet. -/
def ofFiles (files : FileTree) : Machine := { files := files }

/-- Something that is read off the files. -/
def ask (question : FileTree → α) : StateM Machine α := do return question (← get).files

/-- A change of the files that may fail, and then changes nothing. -/
def change (f : FileTree → Except FileFault FileTree) : StateM Machine (Except FileFault Unit) := do
  match f (← get).files with
  | .error fault => return .error fault
  | .ok files => modify ({ · with files := files }); return .ok ()

instance : Host (StateM Machine) where
  currentDir := ask fun t => ['/'] ++ FileTree.shownPlace t.base
  isFile path := ask (·.isFile (.text path))
  isDir path := ask (·.isDir (.text path))
  isThere path := ask (·.isThere (.text path))
  read path := ask (·.read (.text path))
  mode path := ask (·.mode (.text path))
  makeTemporary directory := return .ok { directory }
  fill file content := return .ok { file with content }
  setMode file mode := return .ok { file with mode }
  persist file path := change (·.persist (.text path) (.text file.content) file.mode)
  overwrite path content := change (·.overwrite (.text path) content)
  walkDir path := ask (·.walkDir path)
  print text := modify fun s => { s with printed := s.printed ++ text }
  note event := modify fun s => { s with log := s.log ++ [event] }

end Machine

end CommandTemplates
