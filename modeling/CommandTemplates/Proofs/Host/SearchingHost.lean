import CommandTemplates.Proofs.File.Listing
import CommandTemplates.Proofs.Host.SteadyHost

/-!
# Hosts that walk through their files

A host whose files are a tree is asked to walk through a directory.  It comes to each entry of the
tree at most once, and to every one that no fault hides.

## Main Definitions

* `SearchingHost` — the laws of such a host
* `SealedMachine` — a machine on which some directories cannot be looked into

## Design Notes

The laws are about the walk alone: which of the entries are looked for, how they are named and what
becomes of the faults is not for the host to say.
-/

namespace CommandTemplates

open SteadyHost (sight)

/-- A host that walks through the tree that it reads from. -/
class SearchingHost (σ : Type) [Host (StateM σ)] extends SteadyHost σ where
  /-- The files on a host. -/
  tree : σ → FileTree
  read_eq (s : σ) (path : Text) : (sight s).read path = (tree s).read (.text path)
  run_walkDir (path : Text) (s : σ) : ∃ steps s',
    (Host.walkDir path : StateM σ (List WalkStep)).run s = (steps, s') ∧ sight s' = sight s ∧
      ((tree s).Orderly → (tree s).Walked path steps)

/-- Nothing is closed to the machine itself. -/
instance : SearchingHost Machine where
  tree := Machine.files
  read_eq _ _ := rfl
  run_walkDir path s := ⟨_, s, rfl, rfl, fun ht => FileTree.walked_walkDir ht path⟩

/-- A machine on which some directories cannot be looked into. -/
structure SealedMachine where
  machine : Machine
  /-- Where these directories are. -/
  closed : List Place

namespace SealedMachine

/-- Something that the machine does as ever. -/
def onMachine {α : Type} (x : StateM Machine α) : StateM SealedMachine α :=
  fun s => ((x.run s.machine).1, { s with machine := (x.run s.machine).2 })

/-- The fault of a closed directory, by its names from the start of a walk. -/
def denied (path : Text) (names : Place) : WalkFault :=
  .of (Path.below (.text path) names) (.reported "Permission denied (os error 13)".toList)

/-- Whether a place is inside one of some directories. -/
def isInside (directories : List Place) (place : Place) : Bool :=
  directories.any fun directory => directory.isPrefixOf place && directory ≠ place

/-- A walk that comes to closed directories, but not to what is in them. -/
def walk (closed : List Place) (t : FileTree) (path : Text) : List WalkStep :=
  match t.find (.text path) with
  | .ok (dir, .dir _) =>
    let met := closed.filter (dir.isPrefixOf ·)
    let seen := (t.below dir).filter fun e => !isInside met (dir ++ e.1)
    .ok ⟨.text path, false⟩ :: (seen.map (FileTree.stepBelow path) ++
      (met.map fun place => denied path (place.drop dir.length)).map .error)
  | _ => t.walkDir path

/-- What is inside a closed directory is hidden by its fault. -/
theorem denied_hides {path : Text} {dir rel place : Place} (hmet : dir <+: place)
    (hinside : place <+: dir ++ rel) : (denied path (place.drop dir.length)).Hides path rel := by
  obtain ⟨above, rfl⟩ := hmet
  rw [List.drop_left]
  rintro known ⟨⟩
  exact ⟨above, (List.prefix_append_right_inj dir).mp hinside, rfl⟩

/-- A walk with closed directories comes across everything that is not in one of them, and reports
those that it could not enter. -/
theorem walked_walk {t : FileTree} (ht : t.Orderly) (closed : List Place) (path : Text) :
    t.Walked path (walk closed t path) := by
  rw [walk]
  split
  · next dir mode hfind =>
    refine FileTree.walked_of_below false _ ht hfind (fun h => nomatch h) List.filter_sublist
      fun e he => ?_
    rw [List.mem_filter, Bool.not_eq_true']
    cases hinside : isInside (closed.filter (dir.isPrefixOf ·)) (dir ++ e.1) with
    | false => exact Or.inl ⟨he, rfl⟩
    | true =>
      obtain ⟨place, hplace, hcontains⟩ := List.any_eq_true.mp hinside
      rw [Bool.and_eq_true, List.isPrefixOf_iff_prefix] at hcontains
      have hmet := List.isPrefixOf_iff_prefix.mp (List.mem_filter.mp hplace).2
      exact Or.inr ⟨_, List.mem_map_of_mem hplace, denied_hides hmet hcontains.1⟩
  · exact FileTree.walked_walkDir ht path

/-- A machine with closed directories does as the machine does, but for a walk. -/
instance : Host (StateM SealedMachine) where
  currentDir := onMachine Host.currentDir
  isFile path := onMachine (Host.isFile path)
  isDir path := onMachine (Host.isDir path)
  isThere path := onMachine (Host.isThere path)
  read path := onMachine (Host.read path)
  mode path := onMachine (Host.mode path)
  makeTemporary directory := onMachine (Host.makeTemporary directory)
  fill file content := onMachine (Host.fill file content)
  setMode file mode := onMachine (Host.setMode file mode)
  persist file path := onMachine (Host.persist file path)
  overwrite path content := onMachine (Host.overwrite path content)
  walkDir path := fun s => (walk s.closed s.machine.files path, s)
  print text := onMachine (Host.print text)
  note event := onMachine (Host.note event)

/-- A walk changes nothing. -/
theorem run_walkDir (path : Text) (s : SealedMachine) :
    (Host.walkDir path : StateM SealedMachine (List WalkStep)).run s =
      (walk s.closed s.machine.files path, s) := rfl

/-- A machine with closed directories keeps the law of a walk, with faults for the directories that
it hides. -/
instance : SearchingHost SealedMachine where
  sight s := sight s.machine
  run_isFile _ s := ⟨s, rfl, rfl⟩
  run_read _ s := ⟨s, rfl, rfl⟩
  run_note _ _ := ⟨_, rfl, rfl⟩
  tree s := s.machine.files
  read_eq _ _ := rfl
  run_walkDir path s := ⟨_, s, run_walkDir path s, rfl, fun ht => walked_walk ht s.closed path⟩

end SealedMachine

end CommandTemplates
