import CommandTemplates.File.Change
import CommandTemplates.Proofs.File.Path

/-!
# Orderly trees stay so

A tree is orderly if every place is kept once, in a directory, and under names as files have them.
Whatever a change puts in a tree is put in a directory that is there, under a step of the path, and
what is erased takes along all that is below it.  So every tree that is made by changes is orderly.

## Main Definitions

* `FileTree.Orderly` — places are kept once, in directories, and under names as files have them
* `FileTree.Made` — trees that are made by changes

## Main Results

* `FileTree.Reaches.of_vacant` — where steps that lead to a vacant place end
* `FileTree.Orderly.put`, `FileTree.Orderly.erase` — one entry more, or some fewer
* `FileTree.Made.orderly` — every tree that is made by changes is orderly
-/

namespace CommandTemplates.FileTree

/-- Trees that changes make of an empty one. -/
inductive Made : FileTree → Prop
  | empty (base : Place) : Made ⟨base, []⟩
  | overwrite (ht : Made t) (h : t.overwrite (.text path) content = .ok t') : Made t'
  | persist (ht : Made t) (h : t.persist (.text path) content bits = .ok t') : Made t'
  | makeDirs (ht : Made t) (h : t.makeDirs (.text path) = .ok t') : Made t'
  | link (ht : Made t) (h : t.link (.text path) target = .ok t') : Made t'
  | remove (ht : Made t) (h : t.remove (.text path) = .ok t') : Made t'
  | chmod (ht : Made t) (h : t.chmod (.text path) bits = .ok t') : Made t'

variable {t t' : FileTree} {place here : Place} {entry old : FileEntry} {followLast : Bool}
  {n : Nat} {steps : List Octets} {path : Text}

/-- A vacant place is in a directory, and has a name. -/
theorem Reaches.of_vacant (h : Reaches t followLast n here steps (.vacant place))
    (hsteps : ∀ step ∈ steps, IsStep step) :
    ∃ dir name, place = dir ++ [name] ∧ t.IsDir dir ∧ IsName name ∧ t.entryAt? place = none := by
  generalize hspot : Spot.vacant place = spot at h
  induction h with
  | here => cases hspot
  | self _ _ _ ih => exact ih (List.forall_mem_cons.mp hsteps).2 hspot
  | above _ _ _ ih => exact ih (List.forall_mem_cons.mp hsteps).2 hspot
  | vacant hdir hname hnone =>
    cases hspot
    have hstep := hsteps _ List.mem_cons_self
    exact ⟨_, _, rfl, hdir, hstep.isName hname.ne_self hname.ne_above, hnone⟩
  | unfollowed => cases hspot
  | link _ _ _ _ _ ih =>
    refine ih (fun step hstep => ?_) hspot
    rcases List.mem_append.mp hstep with hstep | hstep
    · exact Path.isStep_of_mem_steps hstep
    · exact hsteps step (List.mem_cons_of_mem _ hstep)
  | down _ _ _ _ _ ih => exact ih (List.forall_mem_cons.mp hsteps).2 hspot

/-- What is found at a path stands at the place where it is found. -/
theorem entryAt?_of_find {path : Octets} (h : t.find path = .ok (place, entry)) :
    t.entryAt? place = some entry := by
  unfold find at h
  split at h
  · next hlocate =>
    cases h
    exact (locate_eq_ok_iff.mp hlocate).2.entryAt?_eq
  · cases h
  · cases h

namespace WellFormed

/-- What is put in a directory may take the place of anything but another directory. -/
theorem put (ht : t.WellFormed) (hdir : t.IsDir place.dropLast)
    (hkeep : t.IsDir place → ∃ mode, entry = .dir mode) : (t.put place entry).WellFormed := by
  by_cases hplace : place = []
  · subst hplace
    intro p name e hentry
    rw [entryAt?_put_nil] at hentry
    rw [IsDir, entryAt?_put_nil]
    exact ht p name e hentry
  · intro p name e hentry
    rw [entryAt?_put hplace] at hentry
    -- the directory was there before, and it is there still if it is where the entry was put
    have hp : t.IsDir p := by
      split at hentry
      · next heq => rwa [← heq, List.dropLast_concat] at hdir
      · exact ht p name e hentry
    rw [IsDir, entryAt?_put hplace]
    split
    · next heq =>
      obtain ⟨mode, rfl⟩ := hkeep (heq ▸ hp)
      exact ⟨mode, rfl⟩
    · exact hp

/-- What is erased takes along all that is below it. -/
theorem erase (ht : t.WellFormed) (place : Place) : (t.erase place).WellFormed := by
  intro p name e hentry
  have hne : p ++ [name] ≠ [] := List.append_ne_nil_of_right_ne_nil _ (List.cons_ne_nil _ _)
  rw [entryAt?_erase hne] at hentry
  split at hentry
  · cases hentry
  · next hkept =>
    by_cases hp : p = []
    · exact hp ▸ isDir_nil
    · -- what stands below the erased place is gone, so the directory is not below it either
      rw [IsDir, entryAt?_erase hp,
        if_neg fun hbelow => hkept (hbelow.trans (List.prefix_append _ _))]
      exact ht p name e hentry

end WellFormed

/-- Every place is kept once, in a directory, and under names as files have them. -/
structure Orderly (t : FileTree) : Prop where
  wellFormed : t.WellFormed
  nodup : (t.entries.map (·.1)).Nodup
  isName : ∀ e ∈ t.entries, ∀ name ∈ e.1, IsName name

namespace Orderly

/-! ### Entries -/

/-- An orderly tree holds what its entries say.  Without different names for different entries, a
later entry could be hidden by an earlier one. -/
theorem entryAt?_eq_some_iff (ht : t.Orderly) (hplace : place ≠ []) :
    t.entryAt? place = some entry ↔ (place, entry) ∈ t.entries := by
  refine ⟨fun h => mem_entries_of_entryAt? h hplace, fun h => ?_⟩
  rw [entryAt?_of_ne_nil hplace, List.lookup_eq_some_iff]
  obtain ⟨before, after, heq⟩ := List.append_of_mem h
  refine ⟨before, after, heq, fun e he => ?_⟩
  have hnodup := ht.nodup
  rw [heq, List.map_append, List.nodup_append] at hnodup
  rw [bne_iff_ne]
  rintro rfl
  exact hnodup.2.2 _ (List.mem_map_of_mem he) _ (List.mem_map_of_mem List.mem_cons_self) rfl

/-- Everything in an orderly tree stands at a place made of names. -/
theorem isName_of_entryAt? (ht : t.Orderly) (h : t.entryAt? place = some entry) :
    ∀ name ∈ place, IsName name := by
  by_cases hplace : place = []
  · subst hplace
    exact nofun
  · exact ht.isName _ (mem_entries_of_entryAt? h hplace)

/-- Putting something where a directory is above it, and a directory only where one was, keeps a
tree orderly. -/
theorem put (ht : t.Orderly) (hdir : t.IsDir place.dropLast)
    (hkeep : t.IsDir place → ∃ mode, entry = .dir mode) (hnames : ∀ name ∈ place, IsName name) :
    (t.put place entry).Orderly where
  wellFormed := ht.wellFormed.put hdir hkeep
  nodup := by
    have hkept : ((t.entries.filter (·.1 ≠ place)).map (·.1)).Nodup :=
      ht.nodup.sublist (List.filter_sublist.map _)
    refine List.nodup_cons.mpr ⟨fun hmem => ?_, hkept⟩
    obtain ⟨e, he, rfl⟩ := List.mem_map.mp hmem
    exact of_decide_eq_true (List.mem_filter.mp he).2 rfl
  isName e he := by
    rcases List.mem_cons.mp he with rfl | he
    · exact hnames
    · exact ht.isName e (List.mem_filter.mp he).1

/-- Removing what stands at a place takes all that is below it away, so nothing is left without a
directory. -/
theorem erase (ht : t.Orderly) (place : Place) : (t.erase place).Orderly where
  wellFormed := ht.wellFormed.erase place
  nodup := ht.nodup.sublist (List.filter_sublist.map _)
  isName e he := ht.isName e (List.mem_filter.mp he).1

/-- What is put where steps lead to nothing has a directory above it: the one in which the last step
was looked up. -/
theorem put_vacant (ht : t.Orderly) (h : Reaches t followLast n here steps (.vacant place))
    (hsteps : ∀ step ∈ steps, IsStep step) : (t.put place entry).Orderly := by
  obtain ⟨dir, name, rfl, hdir, hname, hnone⟩ := h.of_vacant hsteps
  refine ht.put ?_ ?_ fun step hstep => ?_
  · rwa [List.dropLast_concat]
  · rintro ⟨mode, hmode⟩
    cases hnone.symm.trans hmode
  · obtain ⟨mode, hmode⟩ := hdir
    rcases List.mem_append.mp hstep with hstep | hstep
    · exact ht.isName_of_entryAt? hmode step hstep
    · rwa [List.mem_singleton.mp hstep]

/-- What is put in the stead of something has the directory above it that was there before. -/
theorem put_present (ht : t.Orderly) (h : t.entryAt? place = some old)
    (hkeep : ∀ mode, old = .dir mode → ∃ mode', entry = .dir mode') :
    (t.put place entry).Orderly := by
  refine ht.put ?_ ?_ (ht.isName_of_entryAt? h)
  · rcases List.eq_nil_or_concat place with rfl | ⟨p, name, rfl⟩
    · exact isDir_nil
    · rw [List.concat_eq_append] at h ⊢
      rw [List.dropLast_concat]
      exact ht.wellFormed p name old h
  · rintro ⟨mode, hmode⟩
    exact hkeep mode (Option.some.inj (h.symm.trans hmode))

/-! ### Changes of one entry -/

/-- What is put where the steps of a path end. -/
theorem put_located (ht : t.Orderly) (h : t.locate followLast (.text path) = .ok (.vacant place)) :
    (t.put place entry).Orderly :=
  ht.put_vacant (locate_eq_ok_iff.mp h).2 fun _ => Path.isStep_of_mem_steps

/-- Writing through links puts a file where one is, or where nothing is. -/
theorem overwrite {content : Octets} (ht : t.Orderly)
    (h : t.overwrite (.text path) content = .ok t') : t'.Orderly := by
  unfold FileTree.overwrite at h
  split at h
  · next hlocate =>
    cases h
    exact ht.put_present (locate_eq_ok_iff.mp hlocate).2.entryAt?_eq fun _ => FileEntry.noConfusion
  · cases h
  · next hlocate =>
    cases h
    exact ht.put_located hlocate
  · cases h

/-- Putting a new file in its place puts it where no directory is. -/
theorem persist {content : Octets} {mode : Nat} (ht : t.Orderly)
    (h : t.persist (.text path) content mode = .ok t') : t'.Orderly := by
  unfold FileTree.persist at h
  split at h
  · cases h
  · next hno hlocate =>
    cases h
    exact ht.put_present (locate_eq_ok_iff.mp hlocate).2.entryAt?_eq fun mode hdir =>
      absurd hdir (hno mode)
  · next hlocate =>
    cases h
    exact ht.put_located hlocate
  · cases h

/-- A link is only made where nothing is. -/
theorem link {target : Text} (ht : t.Orderly) (h : t.link (.text path) target = .ok t') :
    t'.Orderly := by
  unfold FileTree.link at h
  split at h
  · cases h
  · split at h
    · next hlocate =>
      cases h
      exact ht.put_located hlocate
    · cases h
    · cases h

/-- Whatever is removed is removed with all that is below it. -/
theorem remove (ht : t.Orderly) (h : t.remove (.text path) = .ok t') : t'.Orderly := by
  unfold FileTree.remove at h
  split at h
  · cases h
    exact ht.erase _
  · cases h
  · cases h

/-- A change of permissions leaves files files and directories directories. -/
theorem chmod {mode : Nat} (ht : t.Orderly) (h : t.chmod (.text path) mode = .ok t') :
    t'.Orderly := by
  unfold FileTree.chmod at h
  split at h
  · next hfind =>
    cases h
    exact ht.put_present (entryAt?_of_find hfind) fun _ => FileEntry.noConfusion
  · next hfind =>
    cases h
    exact ht.put_present (entryAt?_of_find hfind) fun _ _ => ⟨mode, rfl⟩
  · cases h
  · cases h

/-! ### Directories -/

/-- A directory is made where nothing is, in a directory that is there. -/
theorem makeDir {last : Bool} (ht : t.Orderly) (hsteps : ∀ step ∈ steps, IsStep step)
    (h : t.makeDir here steps last = .ok t') : t'.Orderly := by
  unfold FileTree.makeDir at h
  split at h
  · cases h
  · next hvacant =>
    cases h
    exact ht.put_vacant (follow_eq_ok_iff.mp hvacant) hsteps
  · split at h
    · cases h
      exact ht
    · cases h
    · cases h
    · split at h
      · cases h
      · cases h
        exact ht

/-- Directories are made one after another, each in the one before.  The induction is on the steps
that are left, since every one of them changes the tree. -/
theorem makeDirsFrom {taken : List Octets} (ht : t.Orderly)
    (hsteps : ∀ step ∈ taken ++ steps, IsStep step)
    (h : t.makeDirsFrom here taken steps = .ok t') : t'.Orderly := by
  induction steps generalizing t taken with
  | nil =>
    cases h
    exact ht
  | cons step steps ih =>
    rw [← List.singleton_append, ← List.append_assoc] at hsteps
    unfold FileTree.makeDirsFrom at h
    cases hdir : t.makeDir here (taken ++ [step]) steps.isEmpty with
    | error fault =>
      rw [hdir] at h
      cases h
    | ok t₁ =>
      rw [hdir] at h
      exact ih (ht.makeDir (fun s hs => hsteps s (List.mem_append_left _ hs)) hdir) hsteps h

/-- Making the directories on a path keeps a tree orderly. -/
theorem makeDirs (ht : t.Orderly) (h : t.makeDirs (.text path) = .ok t') : t'.Orderly := by
  unfold FileTree.makeDirs at h
  split at h
  · cases h
  · split at h
    · cases h
    · exact ht.makeDirsFrom (fun _ hstep => Path.isStep_of_mem_steps (List.mem_filter.mp hstep).1) h

end Orderly

/-! ### Trees that are made -/

/-- Every tree that is made by changes is orderly. -/
theorem Made.orderly (h : Made t) : t.Orderly := by
  induction h with
  | empty base => exact ⟨wellFormed_of_entries nofun, List.nodup_nil, nofun⟩
  | overwrite _ h ih => exact ih.overwrite h
  | persist _ h ih => exact ih.persist h
  | makeDirs _ h ih => exact ih.makeDirs h
  | link _ h ih => exact ih.link h
  | remove _ h ih => exact ih.remove h
  | chmod _ h ih => exact ih.chmod h

end CommandTemplates.FileTree
