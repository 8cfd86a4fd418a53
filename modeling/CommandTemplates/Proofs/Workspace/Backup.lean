import CommandTemplates.Proofs.File.Locate
import CommandTemplates.Workspace.Transaction

/-!
# Backups

What has to be remembered of a tree while files are written, and what the tree is like after
everything remembered was brought back.

## Main Definitions

* `FileTree.oldestBackup?` — what was first remembered of the file at a place
* `FileTree.Remembers` — a tree after files were written, with what was remembered of them
* `FileTree.RolledBack` — a tree after everything remembered was brought back

## Main Results

* `FileTree.Remembers.put`, `FileTree.Remembers.append` — writing a file, and one thing after
  another
* `FileTree.RolledBack.entryAt?_eq` — whatever was no link is as it was
* `FileTree.RolledBack.yields_iff` — when every path leads to the content that it led to

## Links

A file is put in the place of a link, and comes back as a file.  That does no harm as long as what
was remembered is what the link led to at the start.  If another name of that file was rewritten
before, it is not: the content that comes back is a template.
-/

namespace CommandTemplates

namespace FileTree

variable {t u v : FileTree} {backups backups' : List Backup} {place : Place} {b : Backup}

/-! ### The oldest backup -/

/-- What was first remembered of the file at a place.  The last one is remembered first. -/
def oldestBackup? (t : FileTree) (backups : List Backup) (place : Place) : Option Backup :=
  (backups.filter fun b => t.place? (.text b.path) = some place).getLast?

/-- Among more backups, the older ones come first. -/
theorem oldestBackup?_append : t.oldestBackup? (backups' ++ backups) place =
    (t.oldestBackup? backups place).or (t.oldestBackup? backups' place) := by
  rw [oldestBackup?, List.filter_append, List.getLast?_append]
  rfl

theorem oldestBackup?_singleton : t.oldestBackup? [b] place =
    if t.place? (.text b.path) = some place then some b else none := by
  unfold oldestBackup?
  split
  · next h => rw [List.filter_cons_of_pos (by simpa using h), List.filter_nil]; rfl
  · next h => rw [List.filter_cons_of_neg (by simpa using h), List.filter_nil]; rfl

theorem oldestBackup?_cons : t.oldestBackup? (b :: backups) place =
    (t.oldestBackup? backups place).or
      (if t.place? (.text b.path) = some place then some b else none) := by
  rw [← List.singleton_append, oldestBackup?_append, oldestBackup?_singleton]

/-- The oldest backup for a place is one of the backups, and its path names the place. -/
theorem oldestBackup?_spec (h : t.oldestBackup? backups place = some b) :
    b ∈ backups ∧ t.place? (.text b.path) = some place := by
  have hmem := List.mem_of_getLast? h
  simpa using hmem

/-- A place that some backup is for has an oldest one. -/
theorem exists_oldestBackup? (hb : b ∈ backups) (h : t.place? (.text b.path) = some place) :
    ∃ b', t.oldestBackup? backups place = some b' := by
  refine Option.isSome_iff_exists.mp ?_
  rw [oldestBackup?, List.getLast?_isSome]
  exact List.ne_nil_of_mem (List.mem_filter.mpr ⟨hb, by simpa using h⟩)

/-- Rewriting a tree changes no place that a path names, so the oldest backups stay the same. -/
theorem Rewritten.oldestBackup?_eq (hu : Rewritten t u) (ht : t.WellFormed)
    (backups : List Backup) (place : Place) :
    u.oldestBackup? backups place = t.oldestBackup? backups place := by
  rw [oldestBackup?, oldestBackup?]
  simp only [hu.place?_eq ht]

/-! ### What is remembered -/

/-- A tree after files were written, with what was remembered of them.  The oldest backup of a
file holds what the file held at first, unless a link stood in its place. -/
structure Remembers (t u : FileTree) (backups : List Backup) : Prop where
  rewritten : Rewritten t u
  named : ∀ b ∈ backups, ∃ place, t.place? (.text b.path) = some place
  untouched : ∀ place, t.oldestBackup? backups place = none → u.entryAt? place = t.entryAt? place
  touched : ∀ place b, t.oldestBackup? backups place = some b →
    ∃ content mode, u.entryAt? place = some (.file content mode) ∧
      (t.entryAt? place = some (.file b.content mode) ∨
        ∃ target, t.entryAt? place = some (.link target))

namespace Remembers

/-- Nothing has to be remembered where nothing changed. -/
theorem refl (t : FileTree) : Remembers t t [] where
  rewritten := .refl t
  named := nofun
  untouched _ _ := rfl
  touched := nofun

/-- What is remembered depends on what stands at the places only. -/
theorem congr (h : Remembers t u backups) (hbase : v.base = u.base)
    (hentry : ∀ place, v.entryAt? place = u.entryAt? place) : Remembers t v backups where
  rewritten :=
    ⟨hbase.trans h.rewritten.base_eq, fun place => hentry place ▸ h.rewritten.entryAt?_eq place⟩
  named := h.named
  untouched place hnone := (hentry place).trans (h.untouched place hnone)
  touched place b hsome := hentry place ▸ h.touched place b hsome

/-- One after the other: what the first steps remembered is older than what the later ones did. -/
theorem append (ht : t.WellFormed) (h : Remembers t u backups) (h' : Remembers u v backups') :
    Remembers t v (backups' ++ backups) where
  rewritten := h.rewritten.trans ht h'.rewritten
  named b hb := by
    rcases List.mem_append.mp hb with hb | hb
    · obtain ⟨place, hplace⟩ := h'.named b hb
      exact ⟨place, (h.rewritten.place?_eq ht _).symm.trans hplace⟩
    · exact h.named b hb
  untouched place hnone := by
    rw [oldestBackup?_append, Option.or_eq_none_iff,
      ← h.rewritten.oldestBackup?_eq ht backups'] at hnone
    exact (h'.untouched place hnone.2).trans (h.untouched place hnone.1)
  touched place b hsome := by
    rw [oldestBackup?_append, ← h.rewritten.oldestBackup?_eq ht backups'] at hsome
    cases hold : t.oldestBackup? backups place with
    | none =>
      rw [hold, Option.none_or] at hsome
      obtain ⟨content, mode, hfile, hbefore⟩ := h'.touched place b hsome
      rw [h.untouched place hold] at hbefore
      exact ⟨content, mode, hfile, hbefore⟩
    | some b₀ =>
      rw [hold, Option.some_or] at hsome
      cases hsome
      obtain ⟨content, mode, hfile, hbefore⟩ := h.touched place b hold
      cases hnew : u.oldestBackup? backups' place with
      | none =>
        rw [h'.untouched place hnew]
        exact ⟨content, mode, hfile, hbefore⟩
      | some b₁ =>
        -- written before and again: by then a file stood there, whatever did at first
        obtain ⟨content', mode', hfile', hold' | ⟨target, hlink⟩⟩ := h'.touched place b₁ hnew
        · cases hfile.symm.trans hold'
          exact ⟨content', mode, hfile', hbefore⟩
        · cases hfile.symm.trans hlink

/-- Writing a file, which is remembered with what is read at its path, be that through a link. -/
theorem put {path : Text} {content new : Octets} {seat file : Place} {mode : Nat}
    (h : t.Holds (.text path) seat file content mode) :
    Remembers t (t.put seat (.file new mode)) [⟨path, content⟩] where
  rewritten := h.isSeat.rewritten_put new mode
  named b hb := by
    rw [List.mem_singleton.mp hb]
    exact ⟨seat, h.place?⟩
  untouched place hnone := by
    rw [entryAt?_put h.isSeat.ne_nil, if_neg]
    rintro rfl
    rw [oldestBackup?_singleton, if_pos h.place?] at hnone
    cases hnone
  touched place b hsome := by
    obtain ⟨hmem, hplace⟩ := oldestBackup?_spec hsome
    cases List.mem_singleton.mp hmem
    cases h.place?.symm.trans hplace
    refine ⟨new, mode, by rw [entryAt?_put h.isSeat.ne_nil, if_pos rfl], ?_⟩
    rcases h.isSeat.entryAt?_eq with ⟨content', mode', hentry⟩ | hlink
    · cases h.lastStep.eq_of_entry hentry fun _ => FileEntry.noConfusion
      exact Or.inl hentry
    · exact Or.inr hlink

end Remembers

/-! ### What is left after everything was brought back -/

/-- A tree after everything remembered was brought back.  A file holds what its oldest backup
says, and that is what it held at first, unless a link stood in its place. -/
structure RolledBack (t u : FileTree) (backups : List Backup) : Prop where
  rewritten : Rewritten t u
  untouched : ∀ place, t.oldestBackup? backups place = none → u.entryAt? place = t.entryAt? place
  touched : ∀ place b, t.oldestBackup? backups place = some b →
    ∃ mode, u.entryAt? place = some (.file b.content mode) ∧
      (t.entryAt? place = some (.file b.content mode) ∨
        ∃ target, t.entryAt? place = some (.link target))

/-- What was first remembered of every link is the content that it led to at first. -/
def LinksKept (t : FileTree) (backups : List Backup) : Prop :=
  ∀ place b target, t.oldestBackup? backups place = some b →
    t.entryAt? place = some (.link target) → t.Yields (.text b.path) b.content

/-- That is so when all that was remembered is what was there at first. -/
theorem linksKept_of_read (h : ∀ b ∈ backups, t.read (.text b.path) = .ok b.content) :
    t.LinksKept backups := by
  intro place b target hb _
  obtain ⟨file, mode, hlocate⟩ := read_eq_ok_iff.mp (h b (oldestBackup?_spec hb).1)
  exact ⟨file, mode, leadsTo_of_locate hlocate⟩

namespace RolledBack

/-- Whatever was no link is as it was, in content and in mode. -/
theorem entryAt?_eq (h : RolledBack t u backups)
    (hno : ∀ target, t.entryAt? place ≠ some (.link target)) :
    u.entryAt? place = t.entryAt? place := by
  cases hb : t.oldestBackup? backups place with
  | none => exact h.untouched place hb
  | some b =>
    obtain ⟨mode, hfile, hbefore | ⟨target, hlink⟩⟩ := h.touched place b hb
    · exact hfile.trans hbefore.symm
    · exact absurd hlink (hno target)

/-- Everything is as it was, unless a link was rewritten: what is brought back there is a file and
no longer a link. -/
theorem entryAt?_eq_iff (h : RolledBack t u backups) :
    (∀ place, u.entryAt? place = t.entryAt? place) ↔
      ∀ b ∈ backups, ∀ place target, t.place? (.text b.path) = some place →
        t.entryAt? place ≠ some (.link target) := by
  constructor
  · intro hsame b hb place target hplace hlink
    obtain ⟨b', hb'⟩ := exists_oldestBackup? hb hplace
    obtain ⟨mode, hfile, -⟩ := h.touched place b' hb'
    cases hlink.symm.trans ((hsame place).symm.trans hfile)
  · intro hno place
    cases hb : t.oldestBackup? backups place with
    | none => exact h.untouched place hb
    | some b =>
      obtain ⟨hmem, hplace⟩ := oldestBackup?_spec hb
      exact h.entryAt?_eq fun target => hno b hmem place target hplace

/-- A seat that is not as it was held a link, and what was first remembered of it is there now. -/
theorem exists_backup (h : RolledBack t u backups)
    (hchanged : u.entryAt? place ≠ t.entryAt? place) :
    ∃ b target mode, t.oldestBackup? backups place = some b ∧
      t.entryAt? place = some (.link target) ∧ u.entryAt? place = some (.file b.content mode) := by
  cases hb : t.oldestBackup? backups place with
  | none => exact absurd (h.untouched place hb) hchanged
  | some b =>
    obtain ⟨mode, hfile, hbefore | ⟨target, hlink⟩⟩ := h.touched place b hb
    · exact absurd (hfile.trans hbefore.symm) hchanged
    · exact ⟨b, target, mode, rfl, hlink, hfile⟩

variable {file : Place} {content content' : Octets} {mode mode' : Nat}

/-- Then a path that is diverted leads to the content that it led to. -/
theorem content_eq (hkept : LinksKept t backups) (ht : t.WellFormed)
    (h : RolledBack t u backups)
    (hdiverts : Diverts t u true (.present file (.file content mode))
      (.present place (.file content' mode')))
    (hentry : u.entryAt? place = some (.file content' mode')) : content' = content := by
  obtain ⟨seat, _, _, hseat, hchanged, hlast, heq⟩ := hdiverts
  cases heq
  obtain ⟨b, target, mode'', hb, hlink, hfile⟩ := h.exists_backup hchanged
  cases hentry.symm.trans hfile
  obtain ⟨file', mode', hleads⟩ := hkept place b target hb hlink
  cases hlast.unique (hleads.lastStep ht (oldestBackup?_spec hb).2)
  rfl

/-- Every path leads to the content that it led to exactly when the links that were written had
not changed what they lead to. -/
theorem yields_iff (h : RolledBack t u backups) (ht : t.WellFormed) :
    (∀ path content, u.Yields path content ↔ t.Yields path content) ↔ LinksKept t backups := by
  constructor
  · intro hsame place b target hb hlink
    have hplace := (h.rewritten.place?_eq ht _).trans (oldestBackup?_spec hb).2
    obtain ⟨mode, hfile, -⟩ := h.touched place b hb
    rw [← hsame]
    exact ⟨place, mode, leadsTo_of_locate (locate_of_place? hplace hfile)⟩
  · intro hkept path content
    -- a path that is diverted was diverted by a link, and what came back is what the link led to
    constructor
    · rintro ⟨place, mode, hleads⟩
      rcases hleads.of_rewritten h.rewritten ht with
        hsame | ⟨file, before, mode', hdiverts, hbefore⟩
      · exact ⟨place, mode, hsame⟩
      · rw [content_eq hkept ht h hdiverts hleads.entryAt?_eq]
        exact ⟨file, mode', hbefore⟩
    · rintro ⟨place, mode, hleads⟩
      rcases hleads.rewritten h.rewritten ht with hsame | ⟨seat, after, mode', hdiverts, hafter⟩
      · exact ⟨place, mode, hsame⟩
      · rw [← content_eq hkept ht h hdiverts hafter.entryAt?_eq]
        exact ⟨seat, mode', hafter⟩

/-- Then what could be read reads as before. -/
theorem read_eq (h : RolledBack t u backups) (ht : t.WellFormed) (hkept : LinksKept t backups)
    {path : Octets} (hread : t.read path = .ok content) : u.read path = .ok content := by
  obtain ⟨file, mode, hlocate⟩ := read_eq_ok_iff.mp hread
  refine read_eq_ok_iff.mpr ?_
  rcases h.rewritten.locate ht hlocate with hsame | ⟨after, hdiverts, hafter⟩
  · exact ⟨file, mode, hsame⟩
  · obtain ⟨seat, content', mode', -, -, -, rfl⟩ := id hdiverts
    rw [← content_eq hkept ht h hdiverts (leadsTo_of_locate hafter).entryAt?_eq]
    exact ⟨seat, mode', hafter⟩

end RolledBack

end FileTree

end CommandTemplates
