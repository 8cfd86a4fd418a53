import CommandTemplates.File.Change
import CommandTemplates.Proofs.File.Seat
import CommandTemplates.Proofs.Text.Pieces

/-!
# Paths in rewritten trees

What a path leads to, what it names without following a link at its end, and how reading,
replacing and overwriting the file at a path depend on them.

## Main Definitions

* `FileTree.IsPath` — a path that can be followed at all
* `FileTree.LeadsTo` — what a path leads to, through however many links
* `FileTree.place?` — where that stands which a path names, a link at its end not followed
* `FileTree.Holds` — a path names a seat, and leads to a file that can be read

## Main Results

* `FileTree.Rewritten.place?_eq` — rewriting moves nothing that a path names
* `FileTree.Holds.replace_eq`, `FileTree.overwrite_eq` — a file is put at the seat
* `FileTree.LeadsTo.rewritten`, `FileTree.LeadsTo.of_rewritten` — what paths lead to changes only
  where a seat diverts them
-/

namespace CommandTemplates

/-- Something is left of a text when it is cut at separators, if only the empty text. -/
theorem Octets.pieces_ne_nil (separator : Char) (octets : Octets) :
    octets.pieces separator ≠ [] := by
  cases octets with
  | text t => exact fun h => Text.pieces_ne_nil separator t (List.map_eq_nil_iff.mp h)
  | illFormed bytes => exact fun h => List.splitOn_ne_nil _ bytes (List.map_eq_nil_iff.mp h)

/-- A path has a step, if only to the directory itself. -/
theorem Path.steps_ne_nil (path : Octets) : Path.steps path ≠ [] := by
  intro h
  obtain ⟨hfilter, hlast⟩ := List.append_eq_nil_iff.mp h
  have hne := path.pieces_ne_nil '/'
  have hmem := List.getLast_mem hne
  rw [List.filter_eq_nil_iff] at hfilter
  have hempty : (path.pieces '/').getLast hne = .text [] := by
    simpa using hfilter _ hmem
  rw [List.getLast?_eq_some_getLast hne, hempty, if_pos rfl] at hlast
  cases hlast

namespace FileTree

variable {t u : FileTree} {followLast : Bool} {n : Nat} {here place seat file : Place}
  {steps : List Octets} {spot : Spot} {entry : FileEntry} {path content new : Octets} {mode : Nat}

/-! ### Steps to a file -/

namespace Reaches

/-- A step can only be taken from a directory. -/
theorem isDir_of_ne_nil (h : Reaches t followLast n here steps spot) (hsteps : steps ≠ []) :
    t.IsDir here := by
  cases steps with
  | nil => exact absurd rfl hsteps
  | cons name rest => exact h.isDir

/-- Steps that lead to something other than a link, the last step not followed, lead there when it
is followed as well. -/
theorem followed (h : Reaches t false n here steps (.present place entry))
    (hno : ∀ target, entry ≠ .link target) :
    Reaches t true n here steps (.present place entry) := by
  generalize hspot : Spot.present place entry = spot at h
  induction h with
  | here h => cases hspot; exact .here h
  | self hdir hname _ ih => exact .self hdir hname (ih hspot)
  | above hdir hname _ ih => exact .above hdir hname (ih hspot)
  | vacant => cases hspot
  | unfollowed => cases hspot; exact absurd rfl (hno _)
  | link hdir hname hlink _ _ ih => exact .link hdir hname hlink (fun _ => rfl) (ih hspot)
  | down hdir hname hentry hlink _ ih => exact .down hdir hname hentry hlink (ih hspot)

/-- Steps that lead to a file name a seat: the place of the file, or that of the last link on the
way, the one at which the steps of the path itself are used up. -/
theorem exists_seat (ht : t.WellFormed) (hdir : t.IsDir here)
    (h : Reaches t true n here steps (.present file (.file content mode))) :
    ∃ seat entry, t.LastStep true seat (.present file (.file content mode)) ∧
      Reaches t false n here steps (.present seat entry) := by
  generalize hspot : Spot.present file (.file content mode) = spot at h
  induction h with
  | here h =>
    cases hspot
    obtain ⟨mode', hmode⟩ := hdir
    cases h.symm.trans hmode
  | self _ hname _ ih =>
    obtain ⟨seat, entry, hlast, hreach⟩ := ih hdir hspot
    exact ⟨seat, entry, hlast, .self hdir hname hreach⟩
  | above _ hname _ ih =>
    obtain ⟨seat, entry, hlast, hreach⟩ := ih (ht.isDir_dropLast hdir) hspot
    exact ⟨seat, entry, hlast, .above hdir hname hreach⟩
  | vacant => cases hspot
  | unfollowed => cases hspot
  | @link here name target rest n spot _ hname hlink hfollow h ih =>
    by_cases hrest : rest = []
    · -- a link at the end is the seat itself
      subst hrest
      exact ⟨_, _, ⟨n + 1, here, name, rfl, hname, .link hdir hname hlink hfollow h⟩,
        .unfollowed hdir hname hlink rfl⟩
    · obtain ⟨seat, entry, hlast, hreach⟩ := ih (hdir.startOf _) hspot
      exact ⟨seat, entry, hlast, .link hdir hname hlink (fun hnil => absurd hnil hrest) hreach⟩
  | @down here name entry n rest spot _ hname hentry hno h ih =>
    cases entry with
    | link target => exact absurd rfl (hno target)
    | file content mode =>
      obtain ⟨rfl, rfl⟩ := h.of_file hentry
      exact ⟨_, _, lastStep_of_entry hdir hname hentry hno,
        .down hdir hname hentry hno (.here hentry)⟩
    | dir mode =>
      obtain ⟨seat, entry, hlast, hreach⟩ := ih ⟨mode, hentry⟩ hspot
      exact ⟨seat, entry, hlast, .down hdir hname hentry hno hreach⟩

end Reaches

/-! ### Paths -/

/-- A path that can be followed: it holds no NUL, and it is neither empty nor too long. -/
structure IsPath (path : Octets) : Prop where
  no_nul : ¬ path.bytes.contains 0
  ne_empty : ¬ path.bytes.isEmpty
  length_le : ¬ pathLimit < path.bytes.length

/-- Locating is following the steps of a path from where it starts, with as many links as may be
followed.  A path is checked before anything is looked up, so it fails alike in every tree. -/
theorem locate_eq_ok_iff : t.locate followLast path = .ok spot ↔
    IsPath path ∧ Reaches t followLast linkLimit (startOf t.base path) (Path.steps path) spot := by
  unfold locate
  split
  · next h => exact ⟨nofun, fun hpath => absurd h hpath.1.no_nul⟩
  · next hnul =>
    split
    · next h => exact ⟨nofun, fun hpath => absurd h hpath.1.ne_empty⟩
    · next hempty =>
      split
      · next h => exact ⟨nofun, fun hpath => absurd h hpath.1.length_le⟩
      · next hlong =>
        rw [follow_eq_ok_iff]
        exact ⟨fun h => ⟨⟨hnul, hempty, hlong⟩, h⟩, And.right⟩

/-- Where that stands which a path names; a link at its end is not followed.  This is the place
that is written to when the file at the path is replaced. -/
def place? (t : FileTree) (path : Octets) : Option Place :=
  match t.locate false path with
  | .ok (.present place _) => some place
  | _ => none

/-- A path names a place exactly when something is located there. -/
theorem place?_eq_some_iff :
    t.place? path = some place ↔ ∃ entry, t.locate false path = .ok (.present place entry) := by
  unfold place?
  constructor
  · intro h
    split at h
    · next entry heq => cases h; exact ⟨entry, heq⟩
    · cases h
  · rintro ⟨entry, h⟩
    rw [h]

/-- What a path leads to, through however many links.  The limit on links is left out, as a file
that took the place of a link leaves fewer of them to follow. -/
def LeadsTo (t : FileTree) (path : Octets) (place : Place) (entry : FileEntry) : Prop :=
  IsPath path ∧ ∃ n, Reaches t true n (startOf t.base path) (Path.steps path) (.present place entry)

/-- A path leads to one place, whatever the number of links. -/
theorem LeadsTo.unique {place' : Place} {entry' : FileEntry} (h : t.LeadsTo path place entry)
    (h' : t.LeadsTo path place' entry') : place = place' ∧ entry = entry' := by
  obtain ⟨-, n, hreach⟩ := h
  obtain ⟨-, n', hreach'⟩ := h'
  cases hreach.unique hreach'
  exact ⟨rfl, rfl⟩

/-- What a path leads to stands where the path leads. -/
theorem LeadsTo.entryAt?_eq (h : t.LeadsTo path place entry) : t.entryAt? place = some entry :=
  let ⟨_, _, hreach⟩ := h
  hreach.entryAt?_eq

/-- A path leads to what is located when it is followed to the end. -/
theorem leadsTo_of_locate (h : t.locate true path = .ok (.present place entry)) :
    t.LeadsTo path place entry :=
  let ⟨hpath, hreach⟩ := locate_eq_ok_iff.mp h
  ⟨hpath, linkLimit, hreach⟩

/-- What is located at a path is what it leads to, unless nothing is located because of the limit on
links. -/
theorem LeadsTo.locate_eq (h : t.LeadsTo path place entry)
    (hok : (t.locate true path).isOk = true) : t.locate true path = .ok (.present place entry) := by
  obtain ⟨hpath, n, hreach⟩ := h
  cases hlocate : t.locate true path with
  | error fault =>
    rw [hlocate] at hok
    cases hok
  | ok spot => rw [hreach.unique (locate_eq_ok_iff.mp hlocate).2]

/-- A path leads to a file with a content, through however many links. -/
def Yields (t : FileTree) (path content : Octets) : Prop :=
  ∃ place mode, t.LeadsTo path place (.file content mode)

/-- The seat that a path names leads where the path leads. -/
theorem LeadsTo.lastStep (ht : t.WellFormed) (hplace : t.place? path = some seat)
    (h : t.LeadsTo path file (.file content mode)) :
    t.LastStep true seat (.present file (.file content mode)) := by
  obtain ⟨-, n, hreach⟩ := h
  obtain ⟨entry, hlocate⟩ := place?_eq_some_iff.mp hplace
  obtain ⟨seat', entry', hlast, hreach'⟩ :=
    hreach.exists_seat ht (hreach.isDir_of_ne_nil (Path.steps_ne_nil path))
  cases hreach'.unique (locate_eq_ok_iff.mp hlocate).2
  exact hlast

/-! ### Files that can be read -/

/-- A path names a seat, and leads to a file that can be read.  The seat is where a new file would
stand and the file is where the old one does; they differ when the path names a link. -/
structure Holds (t : FileTree) (path : Octets) (seat file : Place) (content : Octets)
    (mode : Nat) : Prop where
  place? : t.place? path = some seat
  lastStep : t.LastStep true seat (.present file (.file content mode))
  locate : t.locate true path = .ok (.present file (.file content mode))

/-- What is located, if anything is there, is found. -/
theorem find_eq_of_locate (h : t.locate true path = .ok (.present place entry)) :
    t.find path = .ok (place, entry) := by
  rw [find, h]

/-- What is found was located. -/
theorem locate_of_find (h : t.find path = .ok (place, entry)) :
    t.locate true path = .ok (.present place entry) := by
  rw [find] at h
  split at h
  · next hlocate => cases h; exact hlocate
  · cases h
  · cases h

/-- A path can be read exactly when a file is located at the end of it. -/
theorem read_eq_ok_iff : t.read path = .ok content ↔
    ∃ file mode, t.locate true path = .ok (.present file (.file content mode)) := by
  rw [read, find]
  constructor
  · intro h
    split at h
    · next file content mode heq =>
      cases h
      split at heq
      · next hlocate => cases heq; exact ⟨file, mode, hlocate⟩
      · cases heq
      · cases heq
    · cases h
    · cases h
  · rintro ⟨file, mode, h⟩
    rw [h]

/-- The paths of files are those that can be read. -/
theorem isFile_iff : t.isFile path = true ↔ ∃ content, t.read path = .ok content := by
  rw [isFile, read]
  split
  · next file content mode heq => exact ⟨fun _ => ⟨content, by rw [heq]⟩, fun _ => rfl⟩
  · next hno =>
    refine ⟨fun h => absurd h Bool.false_ne_true, ?_⟩
    rintro ⟨content, h⟩
    split at h
    · next file content mode heq => exact absurd heq (hno file content mode)
    · cases h
    · cases h

/-- A path that can be read names a seat. -/
theorem exists_holds_of_read (ht : t.WellFormed) (h : t.read path = .ok content) :
    ∃ seat file mode, t.Holds path seat file content mode := by
  obtain ⟨file, mode, hlocate⟩ := read_eq_ok_iff.mp h
  obtain ⟨hpath, hreach⟩ := locate_eq_ok_iff.mp hlocate
  obtain ⟨seat, entry, hlast, hreach'⟩ :=
    hreach.exists_seat ht (hreach.isDir_of_ne_nil (Path.steps_ne_nil path))
  exact ⟨seat, file, mode,
    place?_eq_some_iff.mpr ⟨entry, locate_eq_ok_iff.mpr ⟨hpath, hreach'⟩⟩, hlast, hlocate⟩

namespace Holds

/-- The content is read at the path. -/
theorem read_eq (h : t.Holds path seat file content mode) : t.read path = .ok content :=
  read_eq_ok_iff.mpr ⟨file, mode, h.locate⟩

/-- The path leads to the file. -/
theorem leadsTo (h : t.Holds path seat file content mode) :
    t.LeadsTo path file (.file content mode) :=
  leadsTo_of_locate h.locate

/-- What the path names is a seat. -/
theorem isSeat (h : t.Holds path seat file content mode) : t.IsSeat seat :=
  ⟨file, content, mode, h.lastStep⟩

/-- The mode at the path is that of the file, not that of a link to it. -/
theorem mode_eq (h : t.Holds path seat file content mode) : t.mode path = .ok mode := by
  rw [FileTree.mode, find_eq_of_locate h.locate]

/-- A new file is put at the seat of the path, in the stead of a link. -/
theorem persist_eq (h : t.Holds path seat file content mode) (new : Octets) (mode' : Nat) :
    t.persist path new mode' = .ok (t.put seat (.file new mode')) := by
  obtain ⟨entry, hlocate⟩ := place?_eq_some_iff.mp h.place?
  have hentry : t.entryAt? seat = some entry := (locate_eq_ok_iff.mp hlocate).2.entryAt?_eq
  rw [persist, hlocate]
  cases entry with
  | file content mode => rfl
  | link target => rfl
  | dir mode => exact absurd ⟨mode, hentry⟩ h.isSeat.not_isDir

/-- Replacing the file at a path puts a file with the mode of the old one at the seat. -/
theorem replace_eq (h : t.Holds path seat file content mode) (new : Octets) :
    t.replace path new = .ok (t.put seat (.file new mode)) := by
  rw [replace, h.mode_eq]
  exact h.persist_eq new mode

end Holds

/-! ### Paths that name files -/

/-- A path that names a file leads to it. -/
theorem locate_of_place? (hplace : t.place? path = some seat)
    (hentry : t.entryAt? seat = some (.file content mode)) :
    t.locate true path = .ok (.present seat (.file content mode)) := by
  obtain ⟨entry, hlocate⟩ := place?_eq_some_iff.mp hplace
  obtain ⟨hpath, hreach⟩ := locate_eq_ok_iff.mp hlocate
  obtain rfl := Option.some.inj (hreach.entryAt?_eq.symm.trans hentry)
  exact locate_eq_ok_iff.mpr ⟨hpath, hreach.followed fun _ => FileEntry.noConfusion⟩

/-- A path that names a file names a seat. -/
theorem isSeat_of_place? (ht : t.WellFormed) (hplace : t.place? path = some seat)
    (hentry : t.entryAt? seat = some (.file content mode)) : t.IsSeat seat :=
  ⟨seat, content, mode,
    (leadsTo_of_locate (locate_of_place? hplace hentry)).lastStep ht hplace⟩

/-- Overwriting a file with what it holds changes nothing, also where the path names a link. -/
theorem overwrite_of_read (h : t.read path = .ok content) :
    ∃ t', t.overwrite path content = .ok t' ∧ t'.base = t.base ∧
      ∀ place, t'.entryAt? place = t.entryAt? place := by
  obtain ⟨file, mode, hlocate⟩ := read_eq_ok_iff.mp h
  have hentry := (locate_eq_ok_iff.mp hlocate).2.entryAt?_eq
  have hne : file ≠ [] := by
    rintro rfl
    cases hentry
  refine ⟨t.put file (.file content mode), by rw [overwrite, hlocate], rfl, fun place => ?_⟩
  rw [entryAt?_put hne]
  split
  · next heq => rw [heq, hentry]
  · rfl

/-- Overwriting the file that a path names puts a file in its place. -/
theorem overwrite_eq (hplace : t.place? path = some seat)
    (hentry : t.entryAt? seat = some (.file content mode)) (new : Octets) :
    t.overwrite path new = .ok (t.put seat (.file new mode)) := by
  rw [overwrite, locate_of_place? hplace hentry]

/-! ### Paths in rewritten trees -/

section Rewritten

variable (hu : Rewritten t u) (ht : t.WellFormed)
include hu ht

/-- The steps of a path lead where they led, or a seat at their end diverts them. -/
theorem Reaches.path_rewritten
    (h : Reaches t followLast n (startOf t.base path) (Path.steps path) spot) :
    Reaches u followLast n (startOf u.base path) (Path.steps path) spot ∨
      ∃ after, Diverts t u followLast spot after ∧
        Reaches u followLast n (startOf u.base path) (Path.steps path) after := by
  have hdir := h.isDir_of_ne_nil (Path.steps_ne_nil path)
  rw [hu.base_eq]
  exact h.rewritten hu ht hdir

/-- The steps of a path led where they lead, or a seat at their end diverts them. -/
theorem Reaches.path_of_rewritten
    (h : Reaches u followLast n (startOf u.base path) (Path.steps path) spot) :
    Reaches t followLast n (startOf t.base path) (Path.steps path) spot ∨
      ∃ m before, Diverts t u followLast before spot ∧ (followLast = false → m ≤ n) ∧
        Reaches t followLast m (startOf t.base path) (Path.steps path) before := by
  have hdir := hu.isDir_iff.mp (h.isDir_of_ne_nil (Path.steps_ne_nil path))
  rw [hu.base_eq] at h hdir
  exact h.of_rewritten hu ht hdir

/-- What is located in a tree is located in a rewritten one, or a seat diverts it. -/
theorem Rewritten.locate (h : t.locate followLast path = .ok spot) :
    u.locate followLast path = .ok spot ∨
      ∃ after, Diverts t u followLast spot after ∧ u.locate followLast path = .ok after := by
  obtain ⟨hpath, hreach⟩ := locate_eq_ok_iff.mp h
  rcases hreach.path_rewritten hu ht with hsame | ⟨after, hdiverts, hreach'⟩
  · exact Or.inl (locate_eq_ok_iff.mpr ⟨hpath, hsame⟩)
  · exact Or.inr ⟨after, hdiverts, locate_eq_ok_iff.mpr ⟨hpath, hreach'⟩⟩

/-- A path leads where it led, or a seat diverts it to the file that was put there. -/
theorem LeadsTo.rewritten (h : t.LeadsTo path place entry) :
    u.LeadsTo path place entry ∨ ∃ seat content mode,
      Diverts t u true (.present place entry) (.present seat (.file content mode)) ∧
        u.LeadsTo path seat (.file content mode) := by
  obtain ⟨hpath, n, hreach⟩ := h
  rcases hreach.path_rewritten hu ht with hsame | ⟨after, hdiverts, hreach'⟩
  · exact Or.inl ⟨hpath, n, hsame⟩
  · obtain ⟨seat, content, mode, -, -, -, rfl⟩ := id hdiverts
    exact Or.inr ⟨seat, content, mode, hdiverts, hpath, n, hreach'⟩

/-- What diverts a path that is followed to its end is a seat, so the path led to a file. -/
theorem Reaches.exists_leadsTo_of_rewritten (hpath : IsPath path)
    (h : Reaches u true n (startOf u.base path) (Path.steps path) spot) :
    Reaches t true n (startOf t.base path) (Path.steps path) spot ∨ ∃ file content mode,
      Diverts t u true (.present file (.file content mode)) spot ∧
        t.LeadsTo path file (.file content mode) := by
  refine (h.path_of_rewritten hu ht).imp_right ?_
  rintro ⟨m, before, hdiverts, -, hreach⟩
  obtain ⟨seat, _, _, ⟨file, content, mode, hfile⟩, -, hlast, -⟩ := id hdiverts
  cases hlast.unique hfile
  exact ⟨file, content, mode, hdiverts, hpath, m, hreach⟩

/-- What is located in a rewritten tree was located before, or a seat diverts what the path led to,
which was a file. -/
theorem Rewritten.of_locate (h : u.locate true path = .ok spot) :
    t.locate true path = .ok spot ∨ ∃ file content mode,
      Diverts t u true (.present file (.file content mode)) spot ∧
        t.LeadsTo path file (.file content mode) := by
  obtain ⟨hpath, hreach⟩ := locate_eq_ok_iff.mp h
  refine (hreach.exists_leadsTo_of_rewritten hu ht hpath).imp_left fun hsame => ?_
  exact locate_eq_ok_iff.mpr ⟨hpath, hsame⟩

/-- A path that leads somewhere in a rewritten tree led there before, or led to a file, and a seat
diverts it. -/
theorem LeadsTo.of_rewritten (h : u.LeadsTo path place entry) :
    t.LeadsTo path place entry ∨ ∃ file content mode,
      Diverts t u true (.present file (.file content mode)) (.present place entry) ∧
        t.LeadsTo path file (.file content mode) := by
  obtain ⟨hpath, n, hreach⟩ := h
  exact (hreach.exists_leadsTo_of_rewritten hu ht hpath).imp_left fun hsame => ⟨hpath, n, hsame⟩

/-- Rewriting a tree moves nothing that a path names. -/
theorem Rewritten.place?_eq (path : Octets) : u.place? path = t.place? path := by
  refine Option.ext fun place => ?_
  rw [place?_eq_some_iff, place?_eq_some_iff]
  constructor
  · rintro ⟨entry, hlocate⟩
    obtain ⟨hpath, hreach⟩ := locate_eq_ok_iff.mp hlocate
    rcases hreach.path_of_rewritten hu ht with
      hsame | ⟨m, before, ⟨seat, _, _, hseat, -, hlast, hafter⟩, hle, hreach'⟩
    · exact ⟨entry, locate_eq_ok_iff.mpr ⟨hpath, hsame⟩⟩
    · -- the last step to the seat was not followed, so what stood there was named as well
      cases hafter
      obtain ⟨entry', hlast'⟩ := hseat.lastStep_unfollowed
      rw [hlast.unique hlast'] at hreach'
      exact ⟨entry', locate_eq_ok_iff.mpr ⟨hpath, hreach'.mono (hle rfl)⟩⟩
  · rintro ⟨entry, hlocate⟩
    rcases hu.locate ht hlocate with
      hsame | ⟨after, ⟨seat, content, mode, hseat, -, hlast, rfl⟩, hafter⟩
    · exact ⟨entry, hsame⟩
    · obtain ⟨entry', hlast'⟩ := hseat.lastStep_unfollowed
      cases hlast.unique hlast'
      exact ⟨_, hafter⟩

end Rewritten

/-! ### Paths that lead to one file -/

/-- Two paths lead to one file, through however many links. -/
def SameFile (t : FileTree) (path other : Octets) : Prop :=
  ∃ file content mode,
    t.LeadsTo path file (.file content mode) ∧ t.LeadsTo other file (.file content mode)

variable {other : Octets}

/-- It does not matter which of the paths comes first. -/
theorem SameFile.symm (h : t.SameFile path other) : t.SameFile other path :=
  let ⟨file, content, mode, hpath, hother⟩ := h
  ⟨file, content, mode, hother, hpath⟩

/-- Paths that lead to one file after rewriting did so before. -/
theorem SameFile.of_rewritten (hu : Rewritten t u) (ht : t.WellFormed)
    (h : u.SameFile path other) : t.SameFile path other := by
  obtain ⟨file, content, mode, hpath, hother⟩ := h
  rcases hpath.of_rewritten hu ht with hsame | ⟨file₁, content₁, mode₁, hdiverts, hbefore⟩
  · rcases hother.of_rewritten hu ht with hsame' | ⟨file₂, content₂, mode₂, hdiverts', -⟩
    · exact ⟨file, content, mode, hsame, hsame'⟩
    · obtain ⟨seat, _, _, -, hchanged, -, heq⟩ := hdiverts'
      cases heq
      exact absurd (hpath.entryAt?_eq.trans hsame.entryAt?_eq.symm) hchanged
  · -- one path is diverted to the file, so the other is too, and by the same seat
    obtain ⟨seat, _, _, -, hchanged, hlast, heq⟩ := hdiverts
    cases heq
    rcases hother.of_rewritten hu ht with hsame' | ⟨file₂, content₂, mode₂, hdiverts', hbefore'⟩
    · exact absurd (hother.entryAt?_eq.trans hsame'.entryAt?_eq.symm) hchanged
    · obtain ⟨seat', _, _, -, -, hlast', heq⟩ := hdiverts'
      cases heq
      cases hlast.unique hlast'
      exact ⟨file₁, content₁, mode₁, hbefore, hbefore'⟩

namespace Holds

/-- A file that was written reads as it was written. -/
theorem read_put (h : t.Holds path seat file content mode) (ht : t.WellFormed) (new : Octets) :
    (t.put seat (.file new mode)).read path = .ok new := by
  have hu := h.isSeat.rewritten_put new mode
  exact read_eq_ok_iff.mpr ⟨seat, mode, locate_of_place? ((hu.place?_eq ht path).trans h.place?)
    (by rw [entryAt?_put h.isSeat.ne_nil, if_pos rfl])⟩

/-- Writing a file changes what a seat leads to only at its own seat. -/
theorem eq_of_diverts {before after : Spot} (h : t.Holds path seat file content mode)
    (hdiverts : Diverts t (t.put seat (.file new mode)) true before after) :
    before = .present file (.file content mode) := by
  obtain ⟨seat', _, _, -, hchanged, hlast, -⟩ := hdiverts
  rw [entryAt?_put h.isSeat.ne_nil] at hchanged
  split at hchanged
  · next heq => exact (heq ▸ hlast).unique h.lastStep
  · exact absurd rfl hchanged

/-- A path that leads to another file, or to none, reads as before. -/
theorem read_put_of_apart (h : t.Holds path seat file content mode) (ht : t.WellFormed)
    (hother : ¬ t.SameFile path other) (new c : Octets) :
    (t.put seat (.file new mode)).read other = .ok c ↔ t.read other = .ok c := by
  have hu := h.isSeat.rewritten_put new mode
  rw [read_eq_ok_iff, read_eq_ok_iff]
  constructor
  · rintro ⟨file', mode', hlocate⟩
    rcases hu.of_locate ht hlocate with hsame | ⟨file₁, content₁, mode₁, hdiverts, hbefore⟩
    · exact ⟨file', mode', hsame⟩
    · cases h.eq_of_diverts hdiverts
      exact absurd ⟨file, content, mode, h.leadsTo, hbefore⟩ hother
  · rintro ⟨file', mode', hlocate⟩
    rcases hu.locate ht hlocate with hsame | ⟨after, hdiverts, -⟩
    · exact ⟨file', mode', hsame⟩
    · cases h.eq_of_diverts hdiverts
      exact absurd ⟨file, _, mode, h.leadsTo, leadsTo_of_locate hlocate⟩ hother

end Holds

end FileTree

end CommandTemplates
