import CommandTemplates.File.Tree
import Mathlib.Data.List.Induction

/-!
# How steps lead to a spot

`FileTree.Reaches` is the relation between the steps that are taken and the spot they lead to,
with one constructor for each thing that can happen at a step.  `FileTree.follow_eq_ok_iff` says
that it is what `FileTree.follow` computes.

## Main Definitions

* `FileTree.IsDir` — a place where a directory stands
* `FileTree.WellFormed` — everything stands in a directory
* `FileTree.Reaches` — the steps that lead to a spot, with a bound on the links
* `FileTree.Alike` — trees that hold the same at every place

## Main Results

* `FileTree.follow_eq_ok_iff` — the relation and the function agree
* `FileTree.Reaches.unique` — steps lead to one spot, however many links may be followed
* `FileTree.Reaches.not_append` — no steps lead on from a file
-/

namespace CommandTemplates.FileTree

/-! ### Entries -/

section Entries

variable {t : FileTree} {here place : Place} {entry : FileEntry}

/-- Among the entries at some places, only those places have one. -/
theorem lookup_filter {entries : List (Place × FileEntry)} (p : Place → Bool) :
    (entries.filter fun e => p e.1).lookup place =
      if p place = true then entries.lookup place else none := by
  induction entries with
  | nil =>
    rw [List.filter_nil]
    exact (ite_self none).symm
  | cons e entries ih =>
    obtain ⟨q, entry⟩ := e
    rw [List.filter_cons, List.lookup_cons]
    by_cases hsame : place = q
    · subst hsame
      cases hp : p place with
      | true => rw [if_pos rfl, if_pos rfl, List.lookup_cons, beq_self_eq_true]
      | false =>
        rw [if_neg Bool.false_ne_true, if_neg Bool.false_ne_true, ih, hp,
          if_neg Bool.false_ne_true]
    · rw [beq_false_of_ne hsame, ← ih]
      split
      · rw [List.lookup_cons, beq_false_of_ne hsame]
      · rfl

/-- Apart from the root, which is always there, what stands at a place is looked up. -/
theorem entryAt?_of_ne_nil (h : place ≠ []) : t.entryAt? place = t.entries.lookup place := by
  cases place with
  | nil => exact absurd rfl h
  | cons name place => rfl

/-- What is put at a place is there, and stands in the stead of what was. -/
theorem entryAt?_put {q : Place} (hq : q ≠ []) :
    (t.put q entry).entryAt? place = if place = q then some entry else t.entryAt? place := by
  by_cases hplace : place = []
  · subst hplace
    rw [if_neg hq.symm]
    rfl
  · rw [entryAt?_of_ne_nil hplace, put, List.lookup_cons]
    by_cases h : place = q
    · rw [if_pos h, h, beq_self_eq_true]
    · rw [if_neg h, beq_false_of_ne h, entryAt?_of_ne_nil hplace]
      exact (lookup_filter (· ≠ q)).trans (if_pos (decide_eq_true h))

/-- Nothing can be put at the top. -/
theorem entryAt?_put_nil : (t.put [] entry).entryAt? place = t.entryAt? place := by
  cases place with
  | nil => rfl
  | cons name place => exact (lookup_filter (· ≠ [])).trans (if_pos rfl)

/-- What is at a place or below it is gone when the place is erased. -/
theorem entryAt?_erase {q : Place} (hplace : place ≠ []) :
    (t.erase q).entryAt? place = if q <+: place then none else t.entryAt? place := by
  rw [entryAt?_of_ne_nil hplace, entryAt?_of_ne_nil hplace]
  refine (lookup_filter (!q.isPrefixOf ·)).trans ?_
  by_cases h : q <+: place
  · rw [if_pos h, List.isPrefixOf_iff_prefix.mpr h]
    rfl
  · rw [if_neg h, eq_false_of_ne_true (mt List.isPrefixOf_iff_prefix.mp h)]
    rfl

/-- A directory stands at a place. -/
def IsDir (t : FileTree) (place : Place) : Prop := ∃ mode, t.entryAt? place = some (.dir mode)

/-- The root is a directory. -/
theorem isDir_nil : t.IsDir [] := ⟨dirMode, rfl⟩

/-- Whatever stands in a tree stands in a directory. -/
def WellFormed (t : FileTree) : Prop :=
  ∀ place name entry, t.entryAt? (place ++ [name]) = some entry → t.IsDir place

instance (t : FileTree) (place : Place) : Decidable (t.IsDir place) :=
  match h : t.entryAt? place with
  | some (.dir mode) => isTrue ⟨mode, h⟩
  | some (.file _ _) => isFalse fun ⟨_, hdir⟩ => nomatch h.symm.trans hdir
  | some (.link _) => isFalse fun ⟨_, hdir⟩ => nomatch h.symm.trans hdir
  | none => isFalse fun ⟨_, hdir⟩ => nomatch h.symm.trans hdir

/-- What stands at a place other than the root is one of the entries. -/
theorem mem_entries_of_entryAt? (h : t.entryAt? place = some entry) (hplace : place ≠ []) :
    (place, entry) ∈ t.entries := by
  rw [entryAt?_of_ne_nil hplace, List.lookup_eq_some_iff] at h
  obtain ⟨before, after, heq, -⟩ := h
  rw [heq]
  exact List.mem_append_cons_self

/-- A tree is well-formed when each of its entries is in a directory, which can be decided. -/
theorem wellFormed_of_entries (h : ∀ e ∈ t.entries, t.IsDir e.1.dropLast) : t.WellFormed := by
  intro place name entry hentry
  have hne : place ++ [name] ≠ [] :=
    List.append_ne_nil_of_right_ne_nil _ (List.cons_ne_nil _ _)
  have hdir := h _ (mem_entries_of_entryAt? hentry hne)
  rwa [List.dropLast_concat] at hdir

/-- The directory above a directory is one, and the root is above itself. -/
theorem WellFormed.isDir_dropLast (ht : t.WellFormed) (h : t.IsDir here) :
    t.IsDir here.dropLast := by
  rcases List.eq_nil_or_concat here with rfl | ⟨place, name, rfl⟩
  · exact h
  · obtain ⟨mode, h⟩ := h
    rw [List.concat_eq_append, List.dropLast_concat]
    exact ht place name _ (by rw [← List.concat_eq_append]; exact h)

/-- Above everything that stands somewhere are directories. -/
theorem WellFormed.isDir_of_append (ht : t.WellFormed) {rest : Place}
    (h : t.entryAt? (here ++ rest) = some entry) (hrest : rest ≠ []) : t.IsDir here := by
  induction rest using List.reverseRecOn generalizing entry with
  | nil => exact absurd rfl hrest
  | append_singleton rest name ih =>
    rw [← List.append_assoc] at h
    obtain ⟨mode, hdir⟩ := ht _ _ _ h
    by_cases hnil : rest = []
    · subst hnil
      rw [List.append_nil] at hdir
      exact ⟨mode, hdir⟩
    · exact ih hdir hnil

/-- A path starts in a directory, at the root or where it is followed from. -/
theorem IsDir.startOf (h : t.IsDir here) (path : Octets) : t.IsDir (startOf here path) := by
  unfold FileTree.startOf
  split
  · exact isDir_nil
  · exact h

end Entries

/-! ### Steps -/

/-- A name leads down from a directory: it is not a name for the directory itself or for the one
above, and it is not too long. -/
structure LeadsDown (name : Octets) : Prop where
  ne_self : name ≠ Path.self
  ne_above : name ≠ Path.above
  length_le : name.bytes.length ≤ nameLimit

/-- Steps from a place lead to a spot, following at most `n` links. -/
inductive Reaches (t : FileTree) (followLast : Bool) : Nat → Place → List Octets → Spot → Prop
  | here (h : t.entryAt? here = some entry) : Reaches t followLast n here [] (.present here entry)
  | self (hdir : t.IsDir here) (hname : name = Path.self)
      (h : Reaches t followLast n here rest spot) : Reaches t followLast n here (name :: rest) spot
  | above (hdir : t.IsDir here) (hname : name = Path.above)
      (h : Reaches t followLast n here.dropLast rest spot) :
      Reaches t followLast n here (name :: rest) spot
  | vacant (hdir : t.IsDir here) (hname : LeadsDown name)
      (h : t.entryAt? (here ++ [name]) = none) :
      Reaches t followLast n here [name] (.vacant (here ++ [name]))
  | unfollowed (hdir : t.IsDir here) (hname : LeadsDown name)
      (hlink : t.entryAt? (here ++ [name]) = some (.link target)) (hlast : followLast = false) :
      Reaches t followLast n here [name] (.present (here ++ [name]) (.link target))
  | link (hdir : t.IsDir here) (hname : LeadsDown name)
      (hlink : t.entryAt? (here ++ [name]) = some (.link target))
      (hfollow : rest = [] → followLast = true)
      (h : Reaches t followLast n (startOf here (.text target))
        (Path.steps (.text target) ++ rest) spot) :
      Reaches t followLast (n + 1) here (name :: rest) spot
  | down (hdir : t.IsDir here) (hname : LeadsDown name)
      (hentry : t.entryAt? (here ++ [name]) = some entry) (hlink : ∀ target, entry ≠ .link target)
      (h : Reaches t followLast n (here ++ [name]) rest spot) :
      Reaches t followLast n here (name :: rest) spot

/-! ### Agreement with the function -/

section Function

variable {t : FileTree} {followLast : Bool} {n : Nat} {here : Place} {steps : List Octets}
  {spot : Spot}

/-- What is done with a link when at most `n` may be followed. -/
def onLink (t : FileTree) (followLast : Bool) :
    Nat → Place → Text → List Octets → Except FileFault Spot
  | 0, _, _, _ => .error .tooManyLinks
  | n + 1, here, target, rest =>
    t.follow followLast n (startOf here (.text target)) (Path.steps (.text target) ++ rest)

/-- Following steps is walking along them, with the links on the way followed as often as they may
be.  The number of links that are left is the only thing that gets smaller at a link, so this is
what takes the recursion apart. -/
theorem follow_eq_walk : t.follow followLast n = t.walk followLast (t.onLink followLast n) := by
  cases n <;> rfl

/-- One step down. -/
theorem walk_of_leadsDown {name : Octets} {rest : List Octets}
    {onLink : Place → Text → List Octets → Except FileFault Spot}
    (hdir : t.IsDir here) (hname : LeadsDown name) :
    t.walk followLast onLink here (name :: rest) =
      match t.entryAt? (here ++ [name]) with
      | none => if rest.isEmpty then .ok (.vacant (here ++ [name])) else .error .notFound
      | some (.link target) =>
        if rest.isEmpty && !followLast then .ok (.present (here ++ [name]) (.link target))
        else onLink here target rest
      | some _ => t.walk followLast onLink (here ++ [name]) rest := by
  obtain ⟨mode, hdir⟩ := hdir
  rw [walk, hdir]
  exact (if_neg hname.ne_self).trans
    ((if_neg hname.ne_above).trans (if_neg (Nat.not_lt.mpr hname.length_le)))

/-- What a walk arrives at is reached, if that is so beyond the links that the walk comes to. -/
theorem reaches_of_walk
    (honLink : ∀ here target rest spot, t.onLink followLast n here target rest = .ok spot →
      ∃ m, n = m + 1 ∧ Reaches t followLast m (startOf here (.text target))
        (Path.steps (.text target) ++ rest) spot)
    (h : t.walk followLast (t.onLink followLast n) here steps = .ok spot) :
    Reaches t followLast n here steps spot := by
  -- the steps are taken one by one; what comes after a link is left to `honLink`
  induction steps generalizing here with
  | nil =>
    rw [walk] at h
    split at h
    · next entry hentry =>
      cases h
      exact .here hentry
    · cases h
  | cons name rest ih =>
    by_cases hdir : t.IsDir here
    · by_cases hname : LeadsDown name
      · rw [walk_of_leadsDown hdir hname] at h
        split at h
        · next hnone =>
          split at h
          · next hrest =>
            cases h
            rw [List.isEmpty_iff.mp hrest]
            exact .vacant hdir hname hnone
          · cases h
        · next target hlink =>
          split at h
          · next hrest =>
            cases h
            rw [Bool.and_eq_true, List.isEmpty_iff, Bool.not_eq_true'] at hrest
            rw [hrest.1]
            exact .unfollowed hdir hname hlink hrest.2
          · next hrest =>
            obtain ⟨m, rfl, hreach⟩ := honLink _ _ _ _ h
            refine .link hdir hname hlink (fun hnil => ?_) hreach
            simpa [hnil] using hrest
        · next entry hlink hentry =>
          exact .down hdir hname hentry hlink (ih h)
      · obtain ⟨mode, hmode⟩ := hdir
        rw [walk, hmode] at h
        simp only at h
        split at h
        · next hself => exact .self ⟨mode, hmode⟩ hself (ih h)
        · split at h
          · next habove => exact .above ⟨mode, hmode⟩ habove (ih h)
          · next hself habove =>
            rw [if_pos (Nat.lt_of_not_le fun hle => hname ⟨hself, habove, hle⟩)] at h
            cases h
    · rw [walk] at h
      split at h
      · next mode hmode => exact absurd ⟨mode, hmode⟩ hdir
      · cases h
      · cases h

/-- Everything that is reached is found by following the steps. -/
theorem Reaches.follow_eq (h : Reaches t followLast n here steps spot) :
    t.follow followLast n here steps = .ok spot := by
  induction h with
  | here h => rw [follow_eq_walk, walk, h]
  | self hdir hname _ ih =>
    obtain ⟨mode, hmode⟩ := hdir
    rw [follow_eq_walk] at ih ⊢
    rw [walk, hmode]
    simp only [hname, if_true, ih]
  | above hdir hname _ ih =>
    obtain ⟨mode, hmode⟩ := hdir
    rw [follow_eq_walk] at ih ⊢
    rw [walk, hmode]
    simp only [hname, if_true, ih]
    rw [if_neg (by decide)]
  | vacant hdir hname h =>
    rw [follow_eq_walk, walk_of_leadsDown hdir hname, h]
    rfl
  | unfollowed hdir hname hlink hlast =>
    rw [follow_eq_walk, walk_of_leadsDown hdir hname, hlink]
    simp only [hlast, List.isEmpty_nil, Bool.not_false, Bool.and_self, if_true]
  | link hdir hname hlink hfollow _ ih =>
    rw [follow_eq_walk, walk_of_leadsDown hdir hname, hlink]
    simp only
    rw [if_neg, onLink, ih]
    simpa using hfollow
  | @down _ _ entry _ _ _ hdir hname hentry hlink _ ih =>
    rw [follow_eq_walk] at ih ⊢
    rw [walk_of_leadsDown hdir hname, hentry]
    cases entry with
    | link target => exact absurd rfl (hlink target)
    | file content mode => exact ih
    | dir mode => exact ih

/-- Following steps succeeds exactly where the rules of `Reaches` lead. -/
theorem follow_eq_ok_iff :
    t.follow followLast n here steps = .ok spot ↔ Reaches t followLast n here steps spot := by
  refine ⟨fun h => ?_, Reaches.follow_eq⟩
  -- on the number of links, as the steps after a link are no part of those before it
  induction n generalizing here steps spot with
  | zero =>
    rw [follow_eq_walk] at h
    exact reaches_of_walk (fun _ _ _ _ h => nomatch h) h
  | succ n ih =>
    rw [follow_eq_walk] at h
    exact reaches_of_walk (fun _ _ _ _ h => ⟨n, rfl, ih h⟩) h

end Function

/-! ### What the relation says -/

namespace Reaches

variable {t : FileTree} {followLast : Bool} {n m : Nat} {here : Place} {name : Octets}
  {steps rest : List Octets} {spot spot' : Spot}

/-- It does no harm when more links may be followed. -/
theorem mono (h : Reaches t followLast n here steps spot) (hle : n ≤ m) :
    Reaches t followLast m here steps spot := by
  induction h generalizing m with
  | here h => exact .here h
  | self hdir hname _ ih => exact .self hdir hname (ih hle)
  | above hdir hname _ ih => exact .above hdir hname (ih hle)
  | vacant hdir hname h => exact .vacant hdir hname h
  | unfollowed hdir hname hlink hlast => exact .unfollowed hdir hname hlink hlast
  | link hdir hname hlink hfollow _ ih =>
    -- the larger bound is a successor, too
    obtain ⟨m, rfl⟩ := Nat.exists_eq_add_of_lt (Nat.lt_of_succ_le hle)
    exact .link hdir hname hlink hfollow (ih (Nat.le_add_right _ m))
  | down hdir hname hentry hlink _ ih => exact .down hdir hname hentry hlink (ih hle)

/-- Steps lead to one spot, however many links may be followed. -/
theorem unique (h : Reaches t followLast n here steps spot)
    (h' : Reaches t followLast m here steps spot') : spot = spot' := by
  -- with the larger bound both are what the function computes
  have hmax := (h.mono (Nat.le_max_left n m)).follow_eq
  have hmax' := (h'.mono (Nat.le_max_right n m)).follow_eq
  exact Except.ok.inj (hmax.symm.trans hmax')

/-- What is said to stand at a place stands there. -/
theorem entryAt?_eq {place : Place} {entry : FileEntry}
    (h : Reaches t followLast n here steps (.present place entry)) :
    t.entryAt? place = some entry := by
  generalize hspot : Spot.present place entry = spot at h
  induction h with
  | here h => cases hspot; exact h
  | self _ _ _ ih => exact ih hspot
  | above _ _ _ ih => exact ih hspot
  | vacant => cases hspot
  | unfollowed _ _ hlink _ => cases hspot; exact hlink
  | link _ _ _ _ _ ih => exact ih hspot
  | down _ _ _ _ _ ih => exact ih hspot

/-- The first step is taken in a directory. -/
theorem isDir (h : Reaches t followLast n here (name :: rest) spot) : t.IsDir here := by
  cases h <;> assumption

/-- From a file no step is taken. -/
theorem of_file {content : Octets} {mode : Nat} (h : Reaches t followLast n here steps spot)
    (hfile : t.entryAt? here = some (.file content mode)) :
    steps = [] ∧ spot = .present here (.file content mode) := by
  cases steps with
  | nil =>
    cases h with
    | here hentry => exact ⟨rfl, by rw [Option.some.inj (hentry.symm.trans hfile)]⟩
  | cons name rest =>
    obtain ⟨mode', hdir⟩ := h.isDir
    cases hfile.symm.trans hdir

/-- A step to the directory itself leads nowhere else. -/
theorem of_self (h : Reaches t followLast n here (Path.self :: rest) spot) :
    Reaches t followLast n here rest spot := by
  generalize hsteps : Path.self :: rest = steps at h
  cases h with
  | here => cases hsteps
  | self _ _ h => cases hsteps; exact h
  | above _ hname => rw [hname] at hsteps; cases hsteps
  | vacant _ hname => cases hsteps; exact absurd rfl hname.ne_self
  | unfollowed _ hname => cases hsteps; exact absurd rfl hname.ne_self
  | link _ hname => cases hsteps; exact absurd rfl hname.ne_self
  | down _ hname => cases hsteps; exact absurd rfl hname.ne_self

/-- A step up is followed from the directory above. -/
theorem of_above (h : Reaches t followLast n here (Path.above :: rest) spot) :
    Reaches t followLast n here.dropLast rest spot := by
  generalize hsteps : Path.above :: rest = steps at h
  cases h with
  | here => cases hsteps
  | self _ hname => rw [hname] at hsteps; cases hsteps
  | above _ _ h => cases hsteps; exact h
  | vacant _ hname => cases hsteps; exact absurd rfl hname.ne_above
  | unfollowed _ hname => cases hsteps; exact absurd rfl hname.ne_above
  | link _ hname => cases hsteps; exact absurd rfl hname.ne_above
  | down _ hname => cases hsteps; exact absurd rfl hname.ne_above

/-- A step to a link goes on with the steps of its target. -/
theorem of_link {target : Text} (h : Reaches t followLast n here (name :: rest) spot)
    (hname : LeadsDown name) (hlink : t.entryAt? (here ++ [name]) = some (.link target))
    (hfollow : rest = [] → followLast = true) :
    ∃ m, n = m + 1 ∧ Reaches t followLast m (startOf here (.text target))
      (Path.steps (.text target) ++ rest) spot := by
  cases h with
  | self _ hself => exact absurd hself hname.ne_self
  | above _ habove => exact absurd habove hname.ne_above
  | vacant _ _ hnone => cases hlink.symm.trans hnone
  | unfollowed _ _ _ hlast => cases (hfollow rfl).symm.trans hlast
  | link _ _ hlink' _ h =>
    cases hlink.symm.trans hlink'
    exact ⟨_, rfl, h⟩
  | down _ _ hentry hno => exact absurd (Option.some.inj (hentry.symm.trans hlink)) (hno target)

/-- A step to anything but a link goes on from there. -/
theorem of_down {entry : FileEntry} (h : Reaches t followLast n here (name :: rest) spot)
    (hname : LeadsDown name) (hentry : t.entryAt? (here ++ [name]) = some entry)
    (hno : ∀ target, entry ≠ .link target) :
    Reaches t followLast n (here ++ [name]) rest spot := by
  cases h with
  | self _ hself => exact absurd hself hname.ne_self
  | above _ habove => exact absurd habove hname.ne_above
  | vacant _ _ hnone => cases hentry.symm.trans hnone
  | unfollowed _ _ hlink => exact absurd (Option.some.inj (hentry.symm.trans hlink)) (hno _)
  | link _ _ hlink => exact absurd (Option.some.inj (hentry.symm.trans hlink)) (hno _)
  | down _ _ _ _ h => exact h

/-- Steps that lead to a file cannot be followed by more, since only a directory can be looked into.
-/
theorem not_append {place : Place} {content : Octets} {mode : Nat}
    (h : Reaches t true n here steps (.present place (.file content mode)))
    (h' : Reaches t followLast m here (steps ++ rest) spot') : rest = [] := by
  generalize hspot : Spot.present place (.file content mode) = spot at h
  induction h generalizing m with
  | here h =>
    cases hspot
    exact (h'.of_file h).1
  | self _ hname _ ih => exact ih (of_self (hname ▸ h')) hspot
  | above _ hname _ ih => exact ih (of_above (hname ▸ h')) hspot
  | vacant => cases hspot
  | unfollowed _ _ _ hlast => cases hlast
  | @link _ _ _ rest' _ _ _ hname hlink _ _ ih =>
    by_cases hrest : rest = []
    · exact hrest
    · obtain ⟨m, rfl, hon⟩ := h'.of_link hname hlink
        fun hnil => absurd (List.append_eq_nil_iff.mp hnil).2 hrest
      exact ih (by rw [List.append_assoc]; exact hon) hspot
  | down _ hname hentry hno _ ih => exact ih (h'.of_down hname hentry hno) hspot

/-- A last step to a directory itself can be left out. -/
theorem of_self_last (h : Reaches t true n here (steps ++ [Path.self]) spot) :
    Reaches t true n here steps spot := by
  generalize hsteps : steps ++ [Path.self] = all at h
  induction h generalizing steps with
  | here => exact absurd hsteps (List.append_ne_nil_of_right_ne_nil _ (List.cons_ne_nil _ _))
  | self hdir hname h ih =>
    cases steps with
    | nil => cases hsteps; exact h
    | cons => cases hsteps; exact .self hdir hname (ih rfl)
  | above hdir hname _ ih =>
    cases steps with
    | nil => cases hsteps; exact absurd hname (by decide)
    | cons => cases hsteps; exact .above hdir hname (ih rfl)
  | vacant _ hname =>
    obtain ⟨-, hself⟩ := List.append_inj' (hsteps.trans (List.nil_append _).symm) rfl
    cases hself
    exact absurd rfl hname.ne_self
  | unfollowed _ _ _ hlast => cases hlast
  | link hdir hname hlink _ _ ih =>
    cases steps with
    | nil => cases hsteps; exact absurd rfl hname.ne_self
    | cons =>
      cases hsteps
      exact .link hdir hname hlink (fun _ => rfl) (ih (List.append_assoc _ _ _))
  | down hdir hname hentry hno _ ih =>
    cases steps with
    | nil => cases hsteps; exact absurd rfl hname.ne_self
    | cons => cases hsteps; exact .down hdir hname hentry hno (ih rfl)

/-- Where some steps lead, the steps after them go on. -/
theorem of_append {place : Place} {entry : FileEntry}
    (h : Reaches t true n here steps (.present place entry))
    (h' : Reaches t followLast m here (steps ++ rest) spot') (hrest : rest ≠ []) :
    ∃ k, Reaches t followLast k place rest spot' := by
  generalize hspot : Spot.present place entry = spot at h
  induction h generalizing m with
  | here => cases hspot; exact ⟨m, h'⟩
  | self _ hname _ ih => exact ih (of_self (hname ▸ h')) hspot
  | above _ hname _ ih => exact ih (of_above (hname ▸ h')) hspot
  | vacant => cases hspot
  | unfollowed _ _ _ hlast => cases hlast
  | link _ hname hlink _ _ ih =>
    obtain ⟨k, rfl, hon⟩ := h'.of_link hname hlink
      fun hnil => absurd (List.append_eq_nil_iff.mp hnil).2 hrest
    exact ih (by rw [List.append_assoc]; exact hon) hspot
  | down _ hname hentry hno _ ih => exact ih (h'.of_down hname hentry hno) hspot

/-- Names that stand for themselves lead down to the file that stands there. -/
theorem eq_of_file (ht : t.WellFormed) {content : Octets} {mode : Nat}
    (h : Reaches t followLast n here steps spot) (hsteps : steps ≠ [])
    (hnames : ∀ name ∈ steps, name ≠ Path.self ∧ name ≠ Path.above)
    (hfile : t.entryAt? (here ++ steps) = some (.file content mode)) :
    spot = .present (here ++ steps) (.file content mode) := by
  induction h with
  | here => exact absurd rfl hsteps
  | self _ hname => exact absurd hname (hnames _ List.mem_cons_self).1
  | above _ hname => exact absurd hname (hnames _ List.mem_cons_self).2
  | vacant _ _ hnone => cases hnone.symm.trans hfile
  | unfollowed _ _ hlink => cases hlink.symm.trans hfile
  | @link here name target rest n spot _ _ hlink =>
    rw [← List.singleton_append, ← List.append_assoc] at hfile
    by_cases hrest : rest = []
    · subst hrest
      rw [List.append_nil] at hfile
      cases hlink.symm.trans hfile
    · obtain ⟨mode', hdir⟩ := ht.isDir_of_append hfile hrest
      cases hlink.symm.trans hdir
  | @down here name entry n rest spot _ _ hentry _ h ih =>
    rw [← List.singleton_append, ← List.append_assoc] at hfile ⊢
    by_cases hrest : rest = []
    · subst hrest
      rw [List.append_nil] at hfile ⊢
      cases h with
      | here h => rw [Option.some.inj (h.symm.trans hfile)]
    · exact ih hrest (fun name hname => hnames name (List.mem_cons_of_mem _ hname)) hfile

end Reaches

/-! ### Trees that hold the same -/

/-- Two trees hold the same at every place, however their entries are kept.  Nothing that is looked
up can tell them apart. -/
structure Alike (t u : FileTree) : Prop where
  base_eq : u.base = t.base
  entryAt?_eq : ∀ place, u.entryAt? place = t.entryAt? place

namespace Alike

variable {t u : FileTree} {followLast : Bool} {here : Place} {steps : List Octets}

/-- Walking along steps is the same in trees that are alike. -/
theorem walk_eq (h : Alike t u)
    (onLink : Place → Text → List Octets → Except FileFault Spot) :
    u.walk followLast onLink here steps = t.walk followLast onLink here steps := by
  induction steps generalizing here with
  | nil => rw [walk, walk, h.entryAt?_eq]
  | cons name rest ih =>
    rw [walk, walk]
    simp only [h.entryAt?_eq, ih]

/-- Following steps is the same in trees that are alike. -/
theorem follow_eq (h : Alike t u) (n : Nat) :
    u.follow followLast n here steps = t.follow followLast n here steps := by
  induction n generalizing here steps with
  | zero => exact h.walk_eq _
  | succ n ih =>
    rw [follow, follow]
    simp only [ih]
    exact h.walk_eq _

/-- A path locates the same thing in trees that are alike. -/
theorem locate_eq (h : Alike t u) (path : Octets) :
    u.locate followLast path = t.locate followLast path := by
  rw [locate, locate, h.follow_eq, h.base_eq]

/-- They read the same at every path. -/
theorem read_eq (h : Alike t u) (path : Octets) : u.read path = t.read path := by
  rw [read, read, find, find, h.locate_eq]

end Alike

end CommandTemplates.FileTree
