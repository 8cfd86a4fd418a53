import CommandTemplates.Proofs.File.Change
import Mathlib.Data.List.Nodup

/-!
# What a walk comes to

A walk through a directory comes to everything that stands below it in the tree, each entry once
and by a path that is put together from the path of the directory and the names on the way.  Some
of that may be out of reach; the walk then has a fault on the way there, and goes on elsewhere.

Files are read by such paths as well, and so a file that a walk comes to is the file that is read.

## Main Definitions

* `entriesOf`, `faultsOf` — what a walk comes to, and its faults
* `WalkFault.Hides` — a fault on the way to an entry
* `FileTree.Walked` — what the steps of a walk say of the tree
* `FileTree.MarkdownBelow` — a Markdown file stands below a place

## Main Results

* `FileTree.Orderly.shownPlace_inj` — a place is told by how it is shown
* `FileTree.Orderly.read_below` — a file below a directory is the one that is read
* `FileTree.walked_of_below` — a walk that reaches some entries, with faults that hide the others
* `FileTree.walked_walkDir` — the walk that reaches all of them
-/

namespace CommandTemplates

/-! ### Steps -/

/-- What a walk comes to, in order. -/
def entriesOf (steps : List WalkStep) : List WalkEntry :=
  steps.filterMap fun
    | .ok entry => some entry
    | .error _ => none

/-- What a walk cannot come to, in order. -/
def faultsOf (steps : List WalkStep) : List WalkFault :=
  steps.filterMap fun
    | .error fault => some fault
    | .ok _ => none

section Steps

variable {steps steps' : List WalkStep}

@[simp] theorem entriesOf_ok_cons {e : WalkEntry} :
    entriesOf (.ok e :: steps) = e :: entriesOf steps := rfl

@[simp] theorem entriesOf_append :
    entriesOf (steps ++ steps') = entriesOf steps ++ entriesOf steps' :=
  List.filterMap_append

@[simp] theorem entriesOf_errors (faults : List WalkFault) :
    entriesOf (faults.map .error) = [] := by
  rw [entriesOf, List.filterMap_map]
  exact List.filterMap_eq_nil_iff.mpr fun _ _ => rfl

@[simp] theorem faultsOf_ok_cons {e : WalkEntry} : faultsOf (.ok e :: steps) = faultsOf steps := rfl

@[simp] theorem faultsOf_append :
    faultsOf (steps ++ steps') = faultsOf steps ++ faultsOf steps' :=
  List.filterMap_append

@[simp] theorem faultsOf_errors (faults : List WalkFault) :
    faultsOf (faults.map .error) = faults := by
  rw [faultsOf, List.filterMap_map]
  exact List.filterMap_some

end Steps

/-- A fault hides what is below a directory under these names: it is a fault of a path on the way
there, if it is known of what path.  A fault of an unknown path may hide anything. -/
def WalkFault.Hides (fault : WalkFault) (path : Text) (names : Place) : Prop :=
  ∀ known, fault.path = some known →
    ∃ above, above <+: names ∧ known = Path.below (.text path) above

namespace FileTree

variable {t : FileTree} {dir rel place : Place} {entry : FileEntry} {path : Text}
  {content content' : Octets} {mode : Nat}

/-! ### Files below a directory -/

/-- A Markdown file with this content stands below a place, under these names. -/
structure MarkdownBelow (t : FileTree) (dir rel : Place) (content : Octets) : Prop where
  isFile : ∃ mode, t.entryAt? (dir ++ rel) = some (.file content mode)
  isMarkdown : ∃ name, rel.getLast? = some name ∧ Path.isMarkdownName name = true

/-- A directory is not below itself. -/
theorem MarkdownBelow.ne_nil (h : t.MarkdownBelow dir rel content) : rel ≠ [] := by
  obtain ⟨name, hname, -⟩ := h.isMarkdown
  rintro rfl
  cases hname

namespace Orderly

/-- What is below a directory is reached by names. -/
theorem isName_of_below (ht : t.Orderly) (h : t.entryAt? (dir ++ rel) = some entry) :
    ∀ name ∈ rel, IsName name := fun name hname =>
  ht.isName_of_entryAt? h name (List.mem_append_right _ hname)

/-- A file below a directory is the one that is read at its path. -/
theorem read_below (ht : t.Orderly) (hdir : t.find (.text path) = .ok (dir, .dir mode))
    (hfile : t.MarkdownBelow dir rel content)
    (hread : t.read (.text (Path.join path (shownPlace rel))) = .ok content') :
    content' = content := by
  obtain ⟨mode', hentry⟩ := hfile.isFile
  have hnames := ht.isName_of_below hentry
  obtain ⟨hpath, hreach⟩ := locate_eq_ok_iff.mp (locate_of_find hdir)
  obtain ⟨file, mode'', hlocate⟩ := read_eq_ok_iff.mp hread
  obtain ⟨-, hreach'⟩ := locate_eq_ok_iff.mp hlocate
  have hne : path ≠ [] := by
    rintro rfl
    exact hpath.ne_empty rfl
  obtain ⟨first, last, hsteps, hlast, hsteps'⟩ := IsName.exists_steps_join hfile.ne_nil hnames hne
  rw [hsteps] at hreach
  rw [hsteps', IsName.startOf_join hfile.ne_nil hnames hpath] at hreach'
  -- a step to the directory itself makes no difference
  obtain ⟨k, hrest⟩ : ∃ k, Reaches t true k dir rel (.present file (.file content' mode'')) := by
    rcases hlast with rfl | rfl
    · rw [List.append_nil] at hreach
      exact hreach.of_append hreach' hfile.ne_nil
    · exact hreach.of_self_last.of_append hreach' hfile.ne_nil
  have hspot := hrest.eq_of_file ht.wellFormed hfile.ne_nil
    (fun name hname => ⟨(hnames name hname).ne_self, (hnames name hname).ne_above⟩) hentry
  cases hspot
  rfl

/-- A place is told by how it is shown. -/
theorem shownPlace_inj {rel rel' : Place} {entry' : FileEntry} (ht : t.Orderly) (hrel : rel ≠ [])
    (hrel' : rel' ≠ []) (h : t.entryAt? (dir ++ rel) = some entry)
    (h' : t.entryAt? (dir ++ rel') = some entry') (hshown : shownPlace rel = shownPlace rel') :
    rel = rel' := by
  rw [← IsName.pieces_shownPlace hrel (ht.isName_of_below h), hshown,
    IsName.pieces_shownPlace hrel' (ht.isName_of_below h')]

end Orderly

/-- An entry below a place, by its names from there. -/
def entryBelow? (dir : Place) (e : Place × FileEntry) : Option (Place × FileEntry) :=
  match e.1.drop dir.length with
  | [] => none
  | rest => if dir.isPrefixOf e.1 then some (rest, e.2) else none

/-- An entry is below a directory when its place continues that of the directory. -/
theorem entryBelow?_eq_some_iff {e : Place × FileEntry} :
    entryBelow? dir e = some (rel, entry) ↔ rel ≠ [] ∧ e = (dir ++ rel, entry) := by
  obtain ⟨place, entry'⟩ := e
  rw [entryBelow?]
  constructor
  · intro h
    split at h
    · cases h
    · next rest hrest =>
      split at h
      · next hprefix =>
        obtain ⟨tail, rfl⟩ := List.isPrefixOf_iff_prefix.mp hprefix
        cases h
        rw [List.drop_left] at hrest ⊢
        exact ⟨hrest, rfl⟩
      · cases h
  · rintro ⟨hrel, heq⟩
    cases heq
    rw [List.drop_left]
    split
    · exact absurd rfl hrel
    · exact if_pos (List.isPrefixOf_iff_prefix.mpr (List.prefix_append dir rel))

/-- Sorting leaves everything below a directory in the list. -/
theorem below_perm : (t.below dir).Perm (t.entries.filterMap (entryBelow? dir)) :=
  List.mergeSort_perm _ _

/-- What is below a directory is what the entries of the tree say. -/
theorem mem_below_iff :
    (rel, entry) ∈ t.below dir ↔ rel ≠ [] ∧ (dir ++ rel, entry) ∈ t.entries := by
  rw [below_perm.mem_iff, List.mem_filterMap]
  constructor
  · rintro ⟨e, he, hbelow⟩
    obtain ⟨hrel, rfl⟩ := entryBelow?_eq_some_iff.mp hbelow
    exact ⟨hrel, he⟩
  · rintro ⟨hrel, he⟩
    exact ⟨_, he, entryBelow?_eq_some_iff.mpr ⟨hrel, rfl⟩⟩

/-- Nothing is listed twice below a directory of an orderly tree. -/
theorem Orderly.nodup_below (ht : t.Orderly) : (t.below dir).Nodup := by
  refine below_perm.nodup_iff.mpr ((List.Nodup.of_map _ ht.nodup).filterMap ?_)
  rintro e e' ⟨rel, entry⟩ h h'
  rw [(entryBelow?_eq_some_iff.mp h).2, (entryBelow?_eq_some_iff.mp h').2]

/-- An entry below a directory is told by its names. -/
theorem Orderly.pairwise_below (ht : t.Orderly) :
    (t.below dir).Pairwise fun e e' => e.1 ≠ e'.1 := by
  refine ht.nodup_below.imp_of_mem ?_
  rintro ⟨rel, entry⟩ ⟨rel', entry'⟩ he he' hne rfl
  obtain ⟨hrel, he⟩ := mem_below_iff.mp he
  obtain ⟨-, he'⟩ := mem_below_iff.mp he'
  have hplace := List.append_ne_nil_of_right_ne_nil dir hrel
  rw [← ht.entryAt?_eq_some_iff hplace] at he he'
  exact hne (congrArg (Prod.mk rel) (Option.some.inj (he.symm.trans he')))

/-! ### Walking -/

/-- Everything that is seen below a directory gives an entry, with the path that leads there from
the path of the directory. -/
theorem entriesOf_map_stepBelow (seen : List (Place × FileEntry)) :
    entriesOf (seen.map (stepBelow path)) =
      seen.map fun e => ⟨Path.below (.text path) e.1, e.2.isFile⟩ := by
  rw [entriesOf, List.filterMap_map]
  exact List.filterMap_eq_map_iff_forall_eq_some.mpr fun _ _ => rfl

/-- What is seen below a directory gives no fault. -/
theorem faultsOf_map_stepBelow (seen : List (Place × FileEntry)) :
    faultsOf (seen.map (stepBelow path)) = [] := by
  rw [faultsOf, List.filterMap_map]
  exact List.filterMap_eq_nil_iff.mpr fun _ _ => rfl

/-- What the steps of a walk say of the tree.

No entry comes twice.  An entry is the one at the start, which is a file only if a file is there,
or it stands below the directory at the start: by the path that is put together from its names,
and as a file if it is one.  Everything that stands there comes, unless a fault hides it. -/
structure Walked (t : FileTree) (path : Text) (steps : List WalkStep) : Prop where
  once : (entriesOf steps).Pairwise fun e e' => e.path ≠ e'.path
  sound : ∀ e ∈ entriesOf steps,
    e.path = .text path ∧ (e.isFile = true → t.isFile (.text path) = true) ∨
      ∃ dir mode rel entry, t.find (.text path) = .ok (dir, .dir mode) ∧ rel ≠ [] ∧
        t.entryAt? (dir ++ rel) = some entry ∧ e = ⟨Path.below (.text path) rel, entry.isFile⟩
  complete : ∀ dir mode rel entry, t.find (.text path) = .ok (dir, .dir mode) → rel ≠ [] →
    t.entryAt? (dir ++ rel) = some entry →
      ⟨Path.below (.text path) rel, entry.isFile⟩ ∈ entriesOf steps ∨
        ∃ fault ∈ faultsOf steps, fault.Hides path rel

/-- The path of an entry below a directory tells its names. -/
theorem below_inj {names names' : Place} (h : ∀ name ∈ names, IsName name)
    (h' : ∀ name ∈ names', IsName name)
    (heq : Path.below (.text path) names = Path.below (.text path) names') : names = names' := by
  have hcomponents : ∀ names : Place, (∀ name ∈ names, IsName name) →
      Path.components (Path.below (.text path) names) = Path.components (.text path) ++ names := by
    intro names h
    by_cases hne : names = []
    · rw [hne, List.append_nil]
      rfl
    · rw [IsName.below_eq hne h, IsName.components_join hne h]
  refine List.append_cancel_left ((hcomponents names h).symm.trans ?_)
  rw [heq, hcomponents names' h']

/-- The steps of a walk that comes to some of what is below a directory, with faults that hide the
others. -/
theorem walked_of_below (isFile : Bool) (faults : List WalkFault) (ht : t.Orderly)
    (hdir : t.find (.text path) = .ok (dir, .dir mode))
    (hfile : isFile = true → t.isFile (.text path) = true)
    {seen : List (Place × FileEntry)} (hseen : seen.Sublist (t.below dir))
    (hhidden : ∀ e ∈ t.below dir, e ∈ seen ∨ ∃ fault ∈ faults, fault.Hides path e.1) :
    t.Walked path
      (.ok ⟨.text path, isFile⟩ :: (seen.map (stepBelow path) ++ faults.map .error)) := by
  have hentries : entriesOf (.ok ⟨.text path, isFile⟩ ::
      (seen.map (stepBelow path) ++ faults.map .error)) =
      ⟨.text path, isFile⟩ :: seen.map fun e => ⟨Path.below (.text path) e.1, e.2.isFile⟩ := by
    rw [entriesOf_ok_cons, entriesOf_append, entriesOf_map_stepBelow, entriesOf_errors,
      List.append_nil]
  have hfaults : faultsOf (.ok ⟨.text path, isFile⟩ ::
      (seen.map (stepBelow path) ++ faults.map .error)) = faults := by
    rw [faultsOf_ok_cons, faultsOf_append, faultsOf_map_stepBelow, faultsOf_errors, List.nil_append]
  have hnames : ∀ e ∈ seen, e.1 ≠ [] ∧ t.entryAt? (dir ++ e.1) = some e.2 := by
    intro e he
    obtain ⟨hrel, he⟩ := mem_below_iff.mp (hseen.mem he)
    exact ⟨hrel, (ht.entryAt?_eq_some_iff (List.append_ne_nil_of_right_ne_nil dir hrel)).mpr he⟩
  refine ⟨?_, ?_, ?_⟩
  · rw [hentries, List.pairwise_cons, List.pairwise_map]
    constructor
    · intro _ hstep heq
      obtain ⟨e, he, rfl⟩ := List.mem_map.mp hstep
      obtain ⟨hrel, hentry⟩ := hnames e he
      exact hrel (below_inj (ht.isName_of_below hentry) nofun heq.symm)
    · refine (ht.pairwise_below.sublist hseen).imp_of_mem fun he he' hne heq => hne ?_
      exact below_inj (ht.isName_of_below (hnames _ he).2) (ht.isName_of_below (hnames _ he').2) heq
  · rw [hentries]
    intro _ hstep
    rcases List.mem_cons.mp hstep with rfl | hstep
    · exact Or.inl ⟨rfl, hfile⟩
    · obtain ⟨e, he, rfl⟩ := List.mem_map.mp hstep
      obtain ⟨hrel, hentry⟩ := hnames e he
      exact Or.inr ⟨dir, mode, e.1, e.2, hdir, hrel, hentry, rfl⟩
  · rw [hentries, hfaults]
    intro dir' mode' rel entry hdir' hrel hentry
    cases hdir.symm.trans hdir'
    have hmem := (ht.entryAt?_eq_some_iff (List.append_ne_nil_of_right_ne_nil dir hrel)).mp hentry
    exact (hhidden (rel, entry) (mem_below_iff.mpr ⟨hrel, hmem⟩)).imp_left fun he =>
      List.mem_cons_of_mem _ (List.mem_map_of_mem he)

/-- A walk that has a fault at its start comes to nothing. -/
theorem walked_failing (path : Text) (fault : FileFault) :
    t.Walked path [.error (.of (.text path) fault)] := by
  refine ⟨.nil, nofun, fun _ _ _ _ _ _ _ => Or.inr ⟨_, List.mem_singleton_self _, ?_⟩⟩
  rintro known ⟨⟩
  exact ⟨[], List.nil_prefix, rfl⟩

/-- What stands at a path is a file only if the path leads to one. -/
theorem isFile_of_locate (h : t.locate false (.text path) = .ok (.present place entry))
    (hfile : entry.isFile = true) : t.isFile (.text path) = true := by
  cases entry with
  | file content mode =>
    obtain ⟨hpath, hreach⟩ := locate_eq_ok_iff.mp h
    have hfollowed := locate_eq_ok_iff.mpr ⟨hpath, hreach.followed fun _ => FileEntry.noConfusion⟩
    rw [isFile, find_eq_of_locate hfollowed]
  | dir mode => cases hfile
  | link target => cases hfile

/-- A walk comes to everything, or has a fault at its start. -/
theorem walked_walkDir (ht : t.Orderly) (path : Text) : t.Walked path (t.walkDir path) := by
  rw [walkDir]
  split
  · exact walked_failing path _
  · exact walked_failing path _
  · exact walked_failing path _
  · next dir mode hlocate hfind =>
    have hwalked := walked_of_below _ [] ht hfind (isFile_of_locate hlocate) (.refl _)
      fun e he => Or.inl he
    rwa [List.map_nil, List.append_nil] at hwalked
  · next hlocate _ hno =>
    refine ⟨List.pairwise_singleton _ _, fun e he => ?_, fun dir mode _ _ hdir => ?_⟩
    · cases List.mem_singleton.mp he
      exact Or.inl ⟨rfl, isFile_of_locate hlocate⟩
    · exact absurd hdir (hno dir mode)

end FileTree

end CommandTemplates
