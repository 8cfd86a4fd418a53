import CommandTemplates.Proofs.File.Reach

/-!
# Seats of files

A *seat* is a place where a file is found when the place is the last step of a path: a file
stands there, or a link that leads to one.  What an apply run does to a tree is to put files at
seats.  `FileTree.Rewritten t u` says that nothing else sets `u` apart from `t`, and the two
transfer theorems say what that does to the steps that lead to a spot.

## Main Definitions

* `FileTree.LastStep` — the spot that the last step to a place leads to
* `FileTree.IsSeat` — a place where a file is found
* `FileTree.Rewritten` — files were put at seats, and nothing else changed

## Main Results

* `FileTree.Reaches.rewritten` — steps lead where they led, or end at a seat that was rewritten
* `FileTree.Reaches.of_rewritten` — and conversely
* `FileTree.Rewritten.trans` — seats of the later tree are seats of the earlier one

## Why links make this delicate

A link at a seat may be replaced by a file.  Steps that passed the link *at their end* stop there
from then on, one link earlier than before; steps that passed it *on their way* led nowhere, since
behind the link was a file, and still do.
-/

namespace CommandTemplates.FileTree

section Seat

variable {t : FileTree} {followLast : Bool} {n : Nat} {here place : Place} {name : Octets}
  {rest : List Octets} {spot spot' : Spot} {entry : FileEntry}

/-- The last step of a path goes to a place, and leads to a spot.  From which directory the step is
taken, and how many links may be followed, makes no difference. -/
def LastStep (t : FileTree) (followLast : Bool) (place : Place) (spot : Spot) : Prop :=
  ∃ n here name, place = here ++ [name] ∧ LeadsDown name ∧
    Reaches t followLast n here [name] spot

/-- A file is found at a place when it is the last step of a path.  At a seat there is a file, or a
link that leads to one in the end. -/
def IsSeat (t : FileTree) (place : Place) : Prop :=
  ∃ file content mode, t.LastStep true place (.present file (.file content mode))

/-- A last step leads to one thing, from whichever directory it is taken. -/
theorem LastStep.unique (h : t.LastStep followLast place spot)
    (h' : t.LastStep followLast place spot') : spot = spot' := by
  obtain ⟨n, here, name, rfl, hname, hreach⟩ := h
  obtain ⟨n', here', name', heq, hname', hreach'⟩ := h'
  obtain ⟨rfl, hnames⟩ := List.append_inj' heq rfl
  cases hnames
  exact hreach.unique hreach'

/-- The root is not the place of a last step. -/
theorem LastStep.ne_nil (h : t.LastStep followLast place spot) : place ≠ [] := by
  obtain ⟨n, here, name, rfl, hname, hreach⟩ := h
  exact List.append_ne_nil_of_right_ne_nil _ (List.cons_ne_nil _ _)

/-- What is no link is where the last step to it leads. -/
theorem lastStep_of_entry (hdir : t.IsDir here) (hname : LeadsDown name)
    (hentry : t.entryAt? (here ++ [name]) = some entry) (hno : ∀ target, entry ≠ .link target) :
    t.LastStep followLast (here ++ [name]) (.present (here ++ [name]) entry) :=
  ⟨0, here, name, rfl, hname, .down hdir hname hentry hno (.here hentry)⟩

/-- At the last step, what is no link is found where it stands. -/
theorem LastStep.eq_of_entry (h : t.LastStep followLast place spot)
    (hentry : t.entryAt? place = some entry) (hno : ∀ target, entry ≠ .link target) :
    spot = .present place entry := by
  obtain ⟨n, here, name, rfl, hname, hreach⟩ := h
  cases hreach.of_down hname hentry hno with
  | here hentry' => rw [Option.some.inj (hentry.symm.trans hentry')]

/-- The root is no seat. -/
theorem IsSeat.ne_nil (h : t.IsSeat place) : place ≠ [] :=
  let ⟨_, _, _, hlast⟩ := h
  hlast.ne_nil

/-- A file or a link stands at a seat. -/
theorem IsSeat.entryAt?_eq (h : t.IsSeat place) :
    (∃ content mode, t.entryAt? place = some (.file content mode)) ∨
      ∃ target, t.entryAt? place = some (.link target) := by
  obtain ⟨file, content, mode, hlast⟩ := h
  cases hentry : t.entryAt? place with
  | none =>
    obtain ⟨n, here, name, rfl, hname, hreach⟩ := hlast
    cases hreach with
    | self _ hself => exact absurd hself hname.ne_self
    | above _ habove => exact absurd habove hname.ne_above
    | link _ _ hlink => cases hentry.symm.trans hlink
    | down _ _ hsome => cases hentry.symm.trans hsome
  | some entry =>
    cases entry with
    | file content mode => exact Or.inl ⟨content, mode, rfl⟩
    | link target => exact Or.inr ⟨target, rfl⟩
    | dir mode' => cases hlast.eq_of_entry hentry fun _ => FileEntry.noConfusion

/-- A directory is no seat. -/
theorem IsSeat.not_isDir (h : t.IsSeat place) : ¬ t.IsDir place := by
  rintro ⟨mode, hdir⟩
  rcases h.entryAt?_eq with ⟨content, mode', hfile⟩ | ⟨target, hlink⟩
  · cases hdir.symm.trans hfile
  · cases hdir.symm.trans hlink

/-- A seat is in a directory. -/
theorem IsSeat.isDir (h : t.IsSeat (here ++ [name])) : t.IsDir here ∧ LeadsDown name := by
  obtain ⟨file, content, mode, n, here', name', heq, hname, hreach⟩ := h
  obtain ⟨rfl, hnames⟩ := List.append_inj' heq rfl
  cases hnames
  exact ⟨hreach.isDir, hname⟩

/-- No steps lead on from a seat. -/
theorem IsSeat.rest_eq_nil (h : t.IsSeat (here ++ [name]))
    (hreach : Reaches t followLast n here (name :: rest) spot) : rest = [] := by
  obtain ⟨file, content, mode, m, here', name', heq, hname, hfile⟩ := h
  obtain ⟨rfl, hnames⟩ := List.append_inj' heq rfl
  cases hnames
  exact hfile.not_append hreach

/-- Not followed, the last step to a seat leads to the seat. -/
theorem IsSeat.unfollowed (h : t.IsSeat (here ++ [name])) :
    ∃ entry, Reaches t false 0 here [name] (.present (here ++ [name]) entry) := by
  obtain ⟨hdir, hname⟩ := h.isDir
  rcases h.entryAt?_eq with ⟨content, mode, hfile⟩ | ⟨target, hlink⟩
  · exact ⟨_, .down hdir hname hfile (fun _ => FileEntry.noConfusion) (.here hfile)⟩
  · exact ⟨_, .unfollowed hdir hname hlink rfl⟩

/-- A seat is where a last step leads that is not followed. -/
theorem IsSeat.lastStep_unfollowed (h : t.IsSeat place) :
    ∃ entry, t.LastStep false place (.present place entry) := by
  obtain ⟨file, content, mode, n, here, name, rfl, hname, -⟩ := id h
  obtain ⟨entry, hreach⟩ := h.unfollowed
  exact ⟨entry, 0, here, name, rfl, hname, hreach⟩

/-- The last step to a seat leads to a spot, followed or not. -/
theorem IsSeat.exists_lastStep (h : t.IsSeat (here ++ [name])) (followLast : Bool) :
    ∃ n spot, (followLast = false → n = 0) ∧ Reaches t followLast n here [name] spot := by
  cases followLast with
  | true =>
    obtain ⟨file, content, mode, n, here', name', heq, hname, hreach⟩ := h
    obtain ⟨rfl, hnames⟩ := List.append_inj' heq rfl
    cases hnames
    exact ⟨n, _, Bool.noConfusion, hreach⟩
  | false =>
    obtain ⟨entry, hreach⟩ := h.unfollowed
    exact ⟨0, _, fun _ => rfl, hreach⟩

end Seat

/-! ### Rewritten trees -/

/-- Files were put at seats of a tree, and nothing else changed.  This is all that a transaction
ever does to a tree, when it writes and when it brings files back. -/
structure Rewritten (t u : FileTree) : Prop where
  base_eq : u.base = t.base
  entryAt?_eq : ∀ place, u.entryAt? place = t.entryAt? place ∨
    t.IsSeat place ∧ ∃ content mode, u.entryAt? place = some (.file content mode)

/-- At the end of a path, a seat that was rewritten leads to another spot than before. -/
def Diverts (t u : FileTree) (followLast : Bool) (before after : Spot) : Prop :=
  ∃ place content mode, t.IsSeat place ∧ u.entryAt? place ≠ t.entryAt? place ∧
    t.LastStep followLast place before ∧ after = .present place (.file content mode)

section Rewritten

variable {t u v : FileTree} {followLast : Bool} {n : Nat} {here place : Place}
  {steps : List Octets} {spot : Spot}

/-- A tree is a rewritten one of itself. -/
theorem Rewritten.refl (t : FileTree) : Rewritten t t := ⟨rfl, fun _ => Or.inl rfl⟩

/-- A tree is rewritten when a file is put at a seat. -/
theorem IsSeat.rewritten_put (h : t.IsSeat place) (content : Octets) (mode : Nat) :
    Rewritten t (t.put place (.file content mode)) := by
  refine ⟨rfl, fun p => ?_⟩
  rw [entryAt?_put h.ne_nil]
  split
  · next heq => exact Or.inr ⟨heq ▸ h, content, mode, rfl⟩
  · exact Or.inl rfl

namespace Rewritten

/-- Rewriting makes no directory and takes none away. -/
theorem isDir_iff (h : Rewritten t u) : u.IsDir place ↔ t.IsDir place := by
  rcases h.entryAt?_eq place with hsame | ⟨hseat, content, mode, hfile⟩
  · rw [IsDir, IsDir, hsame]
  · refine ⟨?_, fun hdir => absurd hdir hseat.not_isDir⟩
    rintro ⟨mode', hdir⟩
    cases hdir.symm.trans hfile

/-- A well-formed tree stays one when it is rewritten. -/
theorem wellFormed (h : Rewritten t u) (ht : t.WellFormed) : u.WellFormed := by
  intro place name entry hentry
  rw [h.isDir_iff]
  rcases h.entryAt?_eq (place ++ [name]) with hsame | ⟨hseat, -⟩
  · exact ht place name entry (hsame ▸ hentry)
  · exact hseat.isDir.1

end Rewritten

/-- A place in a rewritten tree either is as before, or is a seat with a file. -/
theorem Rewritten.entryAt?_cases (hu : Rewritten t u) (place : Place) :
    u.entryAt? place = t.entryAt? place ∨ u.entryAt? place ≠ t.entryAt? place ∧ t.IsSeat place ∧
      ∃ content mode, u.entryAt? place = some (.file content mode) := by
  by_cases hsame : u.entryAt? place = t.entryAt? place
  · exact Or.inl hsame
  · exact Or.inr ⟨hsame, (hu.entryAt?_eq place).resolve_left hsame⟩

/-- Steps that were led through a rewritten seat ended there, and end with its file now. -/
theorem Reaches.diverted {name : Octets} {rest : List Octets} {content : Octets} {mode : Nat}
    (h : Reaches t followLast n here (name :: rest) spot) (hdir : u.IsDir here)
    (hname : LeadsDown name) (hseat : t.IsSeat (here ++ [name]))
    (hchanged : u.entryAt? (here ++ [name]) ≠ t.entryAt? (here ++ [name]))
    (hfile : u.entryAt? (here ++ [name]) = some (.file content mode)) :
    ∃ after, Diverts t u followLast spot after ∧
      Reaches u followLast n here (name :: rest) after := by
  obtain rfl := hseat.rest_eq_nil h
  have hstep : t.LastStep followLast (here ++ [name]) spot := ⟨n, here, name, rfl, hname, h⟩
  exact ⟨_, ⟨_, content, mode, hseat, hchanged, hstep, rfl⟩,
    .down hdir hname hfile (fun _ => FileEntry.noConfusion) (.here hfile)⟩

/-- In a rewritten tree, steps lead where they led, or a seat at their end diverts them. -/
theorem Reaches.rewritten (hu : Rewritten t u) (ht : t.WellFormed) (hdir : t.IsDir here)
    (h : Reaches t followLast n here steps spot) :
    Reaches u followLast n here steps spot ∨
      ∃ after, Diverts t u followLast spot after ∧ Reaches u followLast n here steps after := by
  induction h with
  | @here here entry n hentry =>
    rcases hu.entryAt?_eq here with hsame | ⟨hseat, -⟩
    · exact Or.inl (.here (hsame.trans hentry))
    · exact absurd hdir hseat.not_isDir
  | self _ hname _ ih =>
    have hdir' := hu.isDir_iff.mpr hdir
    rcases ih hdir with hsame | ⟨after, hdiverts, hreach⟩
    · exact Or.inl (.self hdir' hname hsame)
    · exact Or.inr ⟨after, hdiverts, .self hdir' hname hreach⟩
  | above _ hname _ ih =>
    have hdir' := hu.isDir_iff.mpr hdir
    rcases ih (ht.isDir_dropLast hdir) with hsame | ⟨after, hdiverts, hreach⟩
    · exact Or.inl (.above hdir' hname hsame)
    · exact Or.inr ⟨after, hdiverts, .above hdir' hname hreach⟩
  | @vacant here name n _ hname hnone =>
    rcases hu.entryAt?_eq (here ++ [name]) with hsame | ⟨hseat, -⟩
    · exact Or.inl (.vacant (hu.isDir_iff.mpr hdir) hname (hsame.trans hnone))
    · rcases hseat.entryAt?_eq with ⟨_, _, hentry⟩ | ⟨_, hentry⟩
      · cases hnone.symm.trans hentry
      · cases hnone.symm.trans hentry
  | @unfollowed here name target n _ hname hlink hlast =>
    have hdir' := hu.isDir_iff.mpr hdir
    rcases hu.entryAt?_cases (here ++ [name]) with hsame | ⟨hchanged, hseat, content, mode, hfile⟩
    · exact Or.inl (.unfollowed hdir' hname (hsame.trans hlink) hlast)
    · have hreach : Reaches t followLast n here [name] (.present (here ++ [name]) (.link target)) :=
        .unfollowed hdir hname hlink hlast
      exact Or.inr (hreach.diverted hdir' hname hseat hchanged hfile)
  | @link here name target rest n spot _ hname hlink hfollow h ih =>
    have hdir' := hu.isDir_iff.mpr hdir
    rcases hu.entryAt?_cases (here ++ [name]) with hsame | ⟨hchanged, hseat, content, mode, hfile⟩
    · rcases ih (hdir.startOf _) with hsame' | ⟨after, hdiverts, hreach⟩
      · exact Or.inl (.link hdir' hname (hsame.trans hlink) hfollow hsame')
      · exact Or.inr ⟨after, hdiverts, .link hdir' hname (hsame.trans hlink) hfollow hreach⟩
    · have hreach : Reaches t followLast (n + 1) here (name :: rest) spot :=
        .link hdir hname hlink hfollow h
      exact Or.inr (hreach.diverted hdir' hname hseat hchanged hfile)
  | @down here name entry n rest spot _ hname hentry hno h ih =>
    have hdir' := hu.isDir_iff.mpr hdir
    rcases hu.entryAt?_cases (here ++ [name]) with hsame | ⟨hchanged, hseat, content, mode, hfile⟩
    · have hentry' := hsame.trans hentry
      cases entry with
      | link target => exact absurd rfl (hno target)
      | file content mode =>
        obtain ⟨rfl, rfl⟩ := h.of_file hentry
        exact Or.inl (.down hdir' hname hentry' hno (.here hentry'))
      | dir mode =>
        rcases ih ⟨mode, hentry⟩ with hsame' | ⟨after, hdiverts, hreach⟩
        · exact Or.inl (.down hdir' hname hentry' hno hsame')
        · exact Or.inr ⟨after, hdiverts, .down hdir' hname hentry' hno hreach⟩
    · have hreach : Reaches t followLast n here (name :: rest) spot :=
        .down hdir hname hentry hno h
      exact Or.inr (hreach.diverted hdir' hname hseat hchanged hfile)

/-- Steps in a rewritten tree led where they lead, or a seat at their end diverts them.  Before,
they may have followed more links, but only when the last one is followed. -/
theorem Reaches.of_rewritten (hu : Rewritten t u) (ht : t.WellFormed) (hdir : t.IsDir here)
    (h : Reaches u followLast n here steps spot) :
    Reaches t followLast n here steps spot ∨
      ∃ m before, Diverts t u followLast before spot ∧ (followLast = false → m ≤ n) ∧
        Reaches t followLast m here steps before := by
  induction h with
  | @here here entry n hentry =>
    rcases hu.entryAt?_eq here with hsame | ⟨hseat, -⟩
    · exact Or.inl (.here (hsame.symm.trans hentry))
    · exact absurd hdir hseat.not_isDir
  | self _ hname _ ih =>
    rcases ih hdir with hsame | ⟨m, before, hdiverts, hle, hreach⟩
    · exact Or.inl (.self hdir hname hsame)
    · exact Or.inr ⟨m, before, hdiverts, hle, .self hdir hname hreach⟩
  | above _ hname _ ih =>
    rcases ih (ht.isDir_dropLast hdir) with hsame | ⟨m, before, hdiverts, hle, hreach⟩
    · exact Or.inl (.above hdir hname hsame)
    · exact Or.inr ⟨m, before, hdiverts, hle, .above hdir hname hreach⟩
  | @vacant here name n _ hname hnone =>
    rcases hu.entryAt?_eq (here ++ [name]) with hsame | ⟨-, content, mode, hfile⟩
    · exact Or.inl (.vacant hdir hname (hsame.symm.trans hnone))
    · cases hnone.symm.trans hfile
  | @unfollowed here name target n _ hname hlink hlast =>
    rcases hu.entryAt?_eq (here ++ [name]) with hsame | ⟨-, content, mode, hfile⟩
    · exact Or.inl (.unfollowed hdir hname (hsame.symm.trans hlink) hlast)
    · cases hlink.symm.trans hfile
  | @link here name target rest n spot _ hname hlink hfollow _ ih =>
    rcases hu.entryAt?_eq (here ++ [name]) with hsame | ⟨-, content, mode, hfile⟩
    · have hlink' := hsame.symm.trans hlink
      rcases ih (hdir.startOf _) with hsame' | ⟨m, before, hdiverts, hle, hreach⟩
      · exact Or.inl (.link hdir hname hlink' hfollow hsame')
      · exact Or.inr ⟨m + 1, before, hdiverts, fun hno => Nat.succ_le_succ (hle hno),
          .link hdir hname hlink' hfollow hreach⟩
    · cases hlink.symm.trans hfile
  | @down here name entry n rest spot _ hname hentry hno h ih =>
    rcases hu.entryAt?_cases (here ++ [name]) with hsame | ⟨hchanged, hseat, content, mode, hfile⟩
    · have hentry' := hsame.symm.trans hentry
      cases entry with
      | link target => exact absurd rfl (hno target)
      | file content mode =>
        obtain ⟨rfl, rfl⟩ := h.of_file hentry
        exact Or.inl (.down hdir hname hentry' hno (.here hentry'))
      | dir mode =>
        rcases ih ⟨mode, hentry'⟩ with hsame' | ⟨m, before, hdiverts, hle, hreach⟩
        · exact Or.inl (.down hdir hname hentry' hno hsame')
        · exact Or.inr ⟨m, before, hdiverts, hle, .down hdir hname hentry' hno hreach⟩
    · -- a link may have stood where the file stands now, so more links were followed then
      obtain ⟨rfl, rfl⟩ := h.of_file hfile
      obtain ⟨m, before, hzero, hreach⟩ := hseat.exists_lastStep followLast
      have hstep : t.LastStep followLast (here ++ [name]) before :=
        ⟨m, here, name, rfl, hname, hreach⟩
      exact Or.inr ⟨m, before, ⟨_, content, mode, hseat, hchanged, hstep, rfl⟩,
        fun hno => hzero hno ▸ Nat.zero_le n, hreach⟩

namespace Rewritten

/-- Seats of a rewritten tree were seats before. -/
theorem isSeat (hu : Rewritten t u) (ht : t.WellFormed) (h : u.IsSeat place) : t.IsSeat place := by
  obtain ⟨file, content, mode, n, here, name, rfl, hname, hreach⟩ := h
  rcases hreach.of_rewritten hu ht (hu.isDir_iff.mp hreach.isDir) with
    hsame | ⟨m, before, ⟨seat, _, _, ⟨file', content', mode', hfile⟩, -, hlast, -⟩, -, hreach'⟩
  · exact ⟨file, content, mode, n, here, name, rfl, hname, hsame⟩
  · rw [hlast.unique hfile] at hreach'
    exact ⟨file', content', mode', m, here, name, rfl, hname, hreach'⟩

/-- Rewriting a rewritten tree rewrites the first one.  A seat of the second tree need not be the
same thing as in the first, so this is not immediate: it has to be traced back. -/
theorem trans (hu : Rewritten t u) (ht : t.WellFormed) (hv : Rewritten u v) : Rewritten t v := by
  refine ⟨hv.base_eq.trans hu.base_eq, fun place => ?_⟩
  rcases hv.entryAt?_eq place with hsame | ⟨hseat, hfile⟩
  · rw [hsame]
    exact hu.entryAt?_eq place
  · exact Or.inr ⟨hu.isSeat ht hseat, hfile⟩

end Rewritten

end Rewritten

end CommandTemplates.FileTree
