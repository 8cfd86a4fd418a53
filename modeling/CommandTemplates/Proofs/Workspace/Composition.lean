import CommandTemplates.Proofs.Workspace.Outcome

/-!
# Runs of some of the groups

What a run leaves of a tree is settled by the set of its listed files, as long as they are
separate: each is rewritten where it is found, by what it held at the start, and all else stays.
So it does not matter in which order files are visited, nor in how many runs.

## Main Definitions

* `Workspace.Leaves` — what a real run leaves of a tree
* `Workspace.reportAt` — what is reported of a listed file

## Main Results

* `Workspace.Visits.leaves`, `Workspace.Leaves.alike` — what a run leaves is settled by the set of
  its listed files
* `Workspace.Visits.exists_split` — a run of two lists is a run of the one and then of the other
* `Workspace.chosen_perm` — groups are chosen together, or some of them and then the others
* `Workspace.apply_composes` — runs of some groups and then of others, and of all of them at once
-/

namespace CommandTemplates

namespace Workspace

variable {w : Workspace} {dryRun : Bool} {group : Group} {file : Text} {t u u' v : FileTree}
  {listed listed' : List (Group × Text)} {report : FileReport} {reports : List FileReport}
  {backups : List Backup} {path content : Octets} {seat place : Place} {mode : Nat}

/-! ### What a run leaves -/

/-- What a real run leaves of a tree.  A listed file that is found at a seat is a template there,
unless it was one; nothing else is changed. -/
structure Leaves (w : Workspace) (listed : List (Group × Text)) (t u : FileTree) : Prop where
  rewritten : t.Rewritten u
  touched : ∀ l ∈ listed, ∀ seat place text mode,
    t.Holds (w.filePath l.2) seat place (.text text) mode →
      u.entryAt? seat = if (w.templateOf l.1 text).content = text then t.entryAt? seat
        else some (.file (.text (w.templateOf l.1 text).content) mode)
  changed : ∀ seat, u.entryAt? seat ≠ t.entryAt? seat →
    ∃ l ∈ listed, ∃ place text mode, t.Holds (w.filePath l.2) seat place (.text text) mode

/-- What is left depends on the set of the listed files alone, and not on the order in which they
were visited. -/
theorem Leaves.alike (h : w.Leaves listed t u) (h' : w.Leaves listed' t u')
    (hlisted : ∀ l, l ∈ listed ↔ l ∈ listed') : u.Alike u' where
  base_eq := h'.rewritten.base_eq.trans h.rewritten.base_eq.symm
  entryAt?_eq seat := by
    by_cases hfound : ∃ l ∈ listed, ∃ place text mode,
        t.Holds (w.filePath l.2) seat place (.text text) mode
    · obtain ⟨l, hl, place, text, mode, hholds⟩ := hfound
      rw [h.touched l hl seat place text mode hholds,
        h'.touched l ((hlisted l).mp hl) seat place text mode hholds]
    · -- no listed file is found there
      have hsame : u.entryAt? seat = t.entryAt? seat :=
        not_not.mp fun hchanged => hfound (h.changed seat hchanged)
      have hsame' : u'.entryAt? seat = t.entryAt? seat := by
        refine not_not.mp fun hchanged => hfound ?_
        obtain ⟨l, hl, hholds⟩ := h'.changed seat hchanged
        exact ⟨l, (hlisted l).mpr hl, hholds⟩
      rw [hsame, hsame']

/-- A path that leads to none of the listed files leads where it led. -/
theorem Leaves.not_diverts {after : Spot} {place : Place} (h : w.Leaves listed t u)
    (hapart : ∀ l ∈ listed, ¬ t.SameFile (w.filePath l.2) path)
    (hleads : t.LeadsTo path place (.file content mode)) :
    ¬ FileTree.Diverts t u true (.present place (.file content mode)) after := by
  rintro ⟨seat, _, _, -, hchanged, hlast, -⟩
  obtain ⟨l, hl, place', text, mode', hholds⟩ := h.changed seat hchanged
  cases hlast.unique hholds.lastStep
  exact hapart l hl ⟨_, _, _, hholds.leadsTo, hleads⟩

/-- A file that is none of the listed ones is found where it was found. -/
theorem Leaves.holds_iff {place : Place} (ht : t.WellFormed) (h : w.Leaves listed t u)
    (hapart : ∀ l ∈ listed, ¬ t.SameFile (w.filePath l.2) path) :
    u.Holds path seat place content mode ↔ t.Holds path seat place content mode := by
  have hplace := h.rewritten.place?_eq ht path
  constructor
  · intro hholds
    have hlocate : t.locate true path = .ok (.present place (.file content mode)) := by
      rcases h.rewritten.of_locate ht hholds.locate with hsame | ⟨_, _, _, hdiverts, hleads⟩
      · exact hsame
      · exact absurd hdiverts (h.not_diverts hapart hleads)
    have hseat := hplace.symm.trans hholds.place?
    exact ⟨hseat, (FileTree.leadsTo_of_locate hlocate).lastStep ht hseat, hlocate⟩
  · intro hholds
    have hlocate : u.locate true path = .ok (.present place (.file content mode)) := by
      rcases h.rewritten.locate ht hholds.locate with hsame | ⟨_, hdiverts, -⟩
      · exact hsame
      · exact absurd hdiverts (h.not_diverts hapart hholds.leadsTo)
    have hseat := hplace.trans hholds.place?
    exact ⟨hseat,
      (FileTree.leadsTo_of_locate hlocate).lastStep (h.rewritten.wellFormed ht) hseat, hlocate⟩

/-- A run on nothing leaves everything as it is. -/
theorem Leaves.nil (t : FileTree) : w.Leaves [] t t :=
  ⟨.refl t, nofun, fun _ hchanged => absurd rfl hchanged⟩

/-- One run after the other leaves what a run on both lists would leave, when no file is listed both
times. -/
theorem Leaves.append (ht : t.WellFormed) (h : w.Leaves listed t u) (h' : w.Leaves listed' u v)
    (hapart : ∀ l ∈ listed, ∀ l' ∈ listed', ¬ t.SameFile (w.filePath l.2) (w.filePath l'.2)) :
    w.Leaves (listed ++ listed') t v where
  rewritten := h.rewritten.trans ht h'.rewritten
  touched l hl seat place text mode hholds := by
    rcases List.mem_append.mp hl with hl | hl'
    · -- no file that is visited later is found at this seat
      rw [← h.touched l hl seat place text mode hholds]
      refine not_not.mp fun hchanged => ?_
      obtain ⟨l', hl', place', text', mode', hholds'⟩ := h'.changed seat hchanged
      have hbefore := (h.holds_iff ht fun l hl => hapart l hl l' hl').mp hholds'
      cases hholds.lastStep.unique hbefore.lastStep
      exact hapart l hl l' hl' ⟨_, _, _, hholds.leadsTo, hbefore.leadsTo⟩
    · -- no file that was visited before was found at this seat
      have hsame : u.entryAt? seat = t.entryAt? seat := by
        refine not_not.mp fun hchanged => ?_
        obtain ⟨l', hl, place', text', mode', hbefore⟩ := h.changed seat hchanged
        cases hholds.lastStep.unique hbefore.lastStep
        exact hapart l' hl l hl' ⟨_, _, _, hbefore.leadsTo, hholds.leadsTo⟩
      rw [h'.touched l hl' seat place text mode
        ((h.holds_iff ht fun l' hl => hapart l' hl l hl').mpr hholds), hsame]
  changed seat hchanged := by
    by_cases hsame : u.entryAt? seat = t.entryAt? seat
    · rw [← hsame] at hchanged
      obtain ⟨l', hl', place, text, mode, hholds⟩ := h'.changed seat hchanged
      exact ⟨l', List.mem_append_right _ hl', place, text, mode,
        (h.holds_iff ht fun l hl => hapart l hl l' hl').mp hholds⟩
    · obtain ⟨l, hl, hholds⟩ := h.changed seat hsame
      exact ⟨l, List.mem_append_left _ hl, hholds⟩

/-- A visit leaves its own file a template, and nothing else changed. -/
theorem Visit.leaves (ht : t.WellFormed) (h : Visit w false group file t report backups u) :
    w.Leaves [(group, file)] t u := by
  refine ⟨(h.remembers ht).rewritten, fun l hl seat place text mode hholds => ?_,
    fun seat hchanged => ?_⟩
  · cases List.mem_singleton.mp hl
    cases h with
    | missing hfile =>
      rw [FileTree.isFile_iff.mpr ⟨_, hholds.read_eq⟩] at hfile
      cases hfile
    | kept hread hkept =>
      cases hread.symm.trans hholds.read_eq
      rw [if_pos (hkept.resolve_right Bool.false_ne_true)]
    | written hread hchanged hreal hreplace =>
      cases hread.symm.trans hholds.read_eq
      cases (hholds.replace_eq _).symm.trans hreplace
      rw [if_neg hchanged, FileTree.entryAt?_put hholds.isSeat.ne_nil, if_pos rfl]
  · cases h with
    | missing => exact absurd rfl hchanged
    | kept => exact absurd rfl hchanged
    | written hread _ hreal hreplace =>
      obtain ⟨seat', place, mode, hholds⟩ := FileTree.exists_holds_of_read ht hread
      cases (hholds.replace_eq _).symm.trans hreplace
      rw [FileTree.entryAt?_put hholds.isSeat.ne_nil] at hchanged
      split at hchanged
      · next heq =>
        rw [heq]
        exact ⟨_, List.mem_singleton_self _, place, _, mode, hholds⟩
      · exact absurd rfl hchanged

/-- A real run leaves its listed files templates, and nothing else changed. -/
theorem Visits.leaves (hlisted : Separate w t listed)
    (h : Visits w false t listed reports backups u) : w.Leaves listed t u := by
  induction h with
  | nil => exact .nil _
  | @cons group file t report backups t₁ listed reports backups' t₂ hvisit _ ih =>
    refine (hvisit.leaves hlisted.wellFormed).append hlisted.wellFormed
      (ih (hlisted.visit hvisit).1) fun l hl => ?_
    cases List.mem_singleton.mp hl
    exact hlisted.distinct.head hlisted.nodup

/-! ### What is reported -/

/-- What is reported of a listed file that is a text, or not there.  It can be said from the tree at
the start. -/
def reportAt (w : Workspace) (t : FileTree) (l : Group × Text) : FileReport :=
  match t.read (w.filePath l.2) with
  | .ok (.text content) => w.reportOf l.1 l.2 content
  | _ => .missing l.2 l.1

/-- A report names the group for which a file is listed. -/
theorem reportAt_group (w : Workspace) (t : FileTree) (l : Group × Text) :
    (w.reportAt t l).group = l.1.name := by
  rw [reportAt]
  split <;> rfl

/-- What a visit reports can be said beforehand, from what the file then holds. -/
theorem Visit.report_eq (h : Visit w dryRun group file t report backups u) :
    report = w.reportAt t (group, file) := by
  cases h with
  | missing hfile =>
    have hunread : ∀ content, t.read (w.filePath file) ≠ .ok content := by
      intro content hread
      rw [FileTree.isFile_iff.mpr ⟨content, hread⟩] at hfile
      cases hfile
    rw [reportAt]
    split
    · next hread => exact absurd hread (hunread _)
    · rfl
  | kept hread =>
    rw [reportAt]
    dsimp only
    rw [hread]
  | written hread =>
    rw [reportAt]
    dsimp only
    rw [hread]

/-- Every file is reported as it was at the start. -/
theorem Visits.reports_eq (hlisted : Separate w t listed)
    (h : Visits w dryRun t listed reports backups u) : reports = listed.map (w.reportAt t) := by
  have hforetold := h.foretold hlisted fun _ _ _ => Iff.rfl
  rw [← List.forall₂_eq_eq_eq, List.forall₂_map_right_iff]
  exact hforetold.flip.imp fun _ _ hvisit => hvisit.report_eq

/-! ### Runs of two lists -/

/-- Separate files that are texts, or not there, can be visited one after the other. -/
theorem Readable.exists_visits (dryRun : Bool) (hlisted : Separate w t listed)
    (h : w.Readable t listed) :
    ∃ reports backups u, Visits w dryRun t listed reports backups u := by
  induction listed generalizing t with
  | nil => exact ⟨_, _, _, .nil⟩
  | cons l listed ih =>
    obtain ⟨report, backups, t', hvisit⟩ := h.exists_visit hlisted.wellFormed
    obtain ⟨hrest, hsame⟩ := hlisted.visit hvisit
    have hreadable : w.Readable t' listed := by
      intro l' hl' hfile
      obtain ⟨content, hread⟩ := FileTree.isFile_iff.mp hfile
      obtain ⟨text, htext⟩ := h l' (List.mem_cons_of_mem _ hl')
        (FileTree.isFile_iff.mpr ⟨content, (hsame l' hl' content).mp hread⟩)
      exact ⟨text, (hsame l' hl' _).mpr htext⟩
    obtain ⟨reports, backups', u, hvisits⟩ := ih hrest hreadable
    exact ⟨_, _, u, .cons hvisit hvisits⟩

/-- A run of two lists is a run of the one and then of the other. -/
theorem Visits.exists_split (h : Visits w dryRun t (listed ++ listed') reports backups v) :
    ∃ reports₁ backups₁ u reports₂ backups₂, reports = reports₁ ++ reports₂ ∧
      Visits w dryRun t listed reports₁ backups₁ u ∧
      Visits w dryRun u listed' reports₂ backups₂ v ∧ reports₁.length = listed.length := by
  induction listed generalizing t reports backups with
  | nil => exact ⟨[], [], t, reports, backups, rfl, .nil, h, rfl⟩
  | cons l listed ih =>
    obtain ⟨group, file⟩ := l
    cases h with
    | cons hvisit hvisits =>
      obtain ⟨reports₁, backups₁, u, reports₂, backups₂, rfl, hfirst, hsecond, hlength⟩ :=
        ih hvisits
      exact ⟨_ :: reports₁, _, u, reports₂, backups₂, rfl, .cons hvisit hfirst, hsecond,
        congrArg Nat.succ hlength⟩

/-! ### Choosing groups by names -/

section Choosing

variable {groups : List Group} {A B C : List Text}

omit w group in
theorem listing_append (groups groups' : List Group) :
    Group.listing (groups ++ groups') = Group.listing groups ++ Group.listing groups' :=
  List.flatMap_append

/-- No file of other groups is listed under a name. -/
theorem filter_listing_of_not_mem {name : Text} (h : name ∉ groups.map (·.name)) :
    (Group.listing groups).filter (·.1.name == name) = [] := by
  rw [List.filter_eq_nil_iff]
  intro l hl
  obtain ⟨group, hgroup, hl⟩ := List.mem_flatMap.mp hl
  obtain ⟨file, -, rfl⟩ := List.mem_map.mp hl
  exact fun hname => h (List.mem_map.mpr ⟨group, hgroup, beq_iff_eq.mp hname⟩)

/-- When no name occurs twice, the files listed under the name of a group are those of the group. -/
theorem filter_listing_of_mem (hnodup : (groups.map (·.name)).Nodup) (h : group ∈ groups) :
    (Group.listing groups).filter (·.1.name == group.name) = Group.listing [group] := by
  obtain ⟨before, after, rfl⟩ := List.append_of_mem h
  rw [List.map_append, List.map_cons, List.nodup_append, List.nodup_cons] at hnodup
  obtain ⟨-, ⟨hafter, -⟩, hbefore⟩ := hnodup
  have hown : (Group.listing [group]).filter (·.1.name == group.name) = Group.listing [group] := by
    rw [List.filter_eq_self]
    intro l hl
    obtain ⟨group', hgroup', hl⟩ := List.mem_flatMap.mp hl
    obtain ⟨file, -, rfl⟩ := List.mem_map.mp hl
    rw [List.mem_singleton.mp hgroup']
    exact beq_self_eq_true _
  rw [← List.singleton_append, listing_append, listing_append, List.filter_append,
    List.filter_append, filter_listing_of_not_mem hafter, hown, filter_listing_of_not_mem,
    List.nil_append, List.append_nil]
  exact fun hmem => hbefore _ hmem _ List.mem_cons_self rfl

/-- The files of some of the groups, in declared order. -/
theorem listing_filter (p : Group → Bool) (groups : List Group) :
    Group.listing (groups.filter p) =
      groups.flatMap fun group => if p group then Group.listing [group] else [] := by
  induction groups with
  | nil => rfl
  | cons group groups ih =>
    rw [List.filter_cons, List.flatMap_cons, ← ih]
    split
    · rw [← List.singleton_append, listing_append]
    · rfl

/-- Groups are chosen together, or some of them and then the others.  The joint choice has them in
declared order, and so it is a rearrangement of the two. -/
theorem chosen_perm (rules : RuleSet) (hA : A ≠ []) (hB : B ≠ [])
    (hapart : ∀ name ∈ A, name ∉ B) (hC : ∀ name, name ∈ C ↔ name ∈ A ∨ name ∈ B) :
    (rules.chosen C).Perm (rules.chosen A ++ rules.chosen B) := by
  have hchosen : ∀ only : List Text, only ≠ [] →
      rules.chosen only = rules.groups.filter fun group => only.contains group.name := by
    intro only hne
    simp only [RuleSet.chosen, List.isEmpty_eq_false_iff.mpr hne, Bool.false_or]
  have hneC : C ≠ [] := by
    obtain ⟨name, hname⟩ := List.exists_mem_of_ne_nil A hA
    exact List.ne_nil_of_mem ((hC name).mpr (Or.inl hname))
  rw [hchosen A hA, hchosen B hB, hchosen C hneC]
  -- of the groups that are chosen together, those named first, and those not named first
  refine (List.filter_append_perm (fun group => A.contains group.name) _).symm.trans
    (List.Perm.of_eq ?_)
  rw [List.filter_filter, List.filter_filter]
  congr 1
  · refine List.filter_congr fun group _ => ?_
    rw [Bool.eq_iff_iff, Bool.and_eq_true, List.contains_iff_mem, List.contains_iff_mem, hC]
    exact ⟨fun h => h.1, fun h => ⟨h, Or.inl h⟩⟩
  · refine List.filter_congr fun group _ => ?_
    rw [Bool.eq_iff_iff, Bool.and_eq_true, Bool.not_eq_true', ← Bool.not_eq_true,
      List.contains_iff_mem, List.contains_iff_mem, List.contains_iff_mem, hC]
    exact ⟨fun h => h.2.resolve_left h.1, fun h => ⟨fun hA => hapart _ hA h, Or.inr h⟩⟩

/-- The chosen groups are visited in declared order, in whichever order they are given. -/
theorem listing_chosen_eq {rules : RuleSet} {only : List Text}
    (hnodup : (rules.groups.map (·.name)).Nodup) (hgroups : (rules.chosen only).Perm groups) :
    Group.listing (rules.chosen only) =
      rules.groups.flatMap fun group => (Group.listing groups).filter (·.1.name == group.name) := by
  have hnames : (groups.map (·.name)).Nodup :=
    (hgroups.map Group.name).nodup ((List.filter_sublist.map Group.name).nodup hnodup)
  rw [RuleSet.chosen, listing_filter]
  refine List.flatMap_congr fun group hgroup => ?_
  split
  · next hchosen =>
    have hmem : group ∈ groups := hgroups.mem_iff.mp (List.mem_filter.mpr ⟨hgroup, hchosen⟩)
    exact (filter_listing_of_mem hnames hmem).symm
  · next hchosen =>
    refine (filter_listing_of_not_mem fun hmem => hchosen ?_).symm
    obtain ⟨group', hgroup', hname⟩ := List.mem_map.mp hmem
    have hchosen' := (List.mem_filter.mp (hgroups.mem_iff.mpr hgroup')).2
    rwa [hname] at hchosen'

omit w group in
/-- The order of the groups does not change which files they list. -/
theorem listing_perm {groups' : List Group} (h : groups.Perm groups') :
    (Group.listing groups).Perm (Group.listing groups') :=
  List.Perm.flatMap_right _ h

/-- Names that lead to different files do so in any order. -/
theorem Separate.of_perm {t : FileTree} {listed listed' : List (Group × Text)}
    (h : Separate w t listed) (hperm : listed.Perm listed') : Separate w t listed' where
  wellFormed := h.wellFormed
  nodup := (hperm.map (·.2)).nodup h.nodup
  distinct l hl l' hl' := h.distinct l (hperm.mem_iff.mpr hl) l' (hperm.mem_iff.mpr hl')

/-- Files that can be read can be read in any order. -/
theorem Readable.of_perm {t : FileTree} {listed listed' : List (Group × Text)}
    (h : w.Readable t listed) (hperm : listed.Perm listed') : w.Readable t listed' := fun l hl =>
  h l (hperm.mem_iff.mpr hl)

end Choosing

/-! ### Two runs and one -/

/-- A run of some groups, and then one of others.  Each reports its files as they were at the start
of the first one. -/
theorem exists_run_apply_twice {A B : List Text} {s : Machine}
    (hA : ∀ name ∈ A, w.rules.Knows name) (hB : ∀ name ∈ B, w.rules.Knows name)
    (hlisted : Separate w s.files (Group.listing (w.rules.chosen A ++ w.rules.chosen B)))
    (hreadable : w.Readable s.files (Group.listing (w.rules.chosen A ++ w.rules.chosen B))) :
    ∃ s₁ s₂,
      (w.apply A false : ExceptT Failure (StateM Machine) ApplyReport).run.run s =
        (.ok ⟨false, (Group.listing (w.rules.chosen A)).map (w.reportAt s.files)⟩, s₁) ∧
      (w.apply B false : ExceptT Failure (StateM Machine) ApplyReport).run.run s₁ =
        (.ok ⟨false, (Group.listing (w.rules.chosen B)).map (w.reportAt s.files)⟩, s₂) ∧
      w.Leaves (Group.listing (w.rules.chosen A ++ w.rules.chosen B)) s.files s₂.files := by
  -- both runs together make the visits of one run of both lists
  obtain ⟨reports, backups, t, hvisits⟩ := hreadable.exists_visits false hlisted
  have hleaves := hvisits.leaves hlisted
  have hreports := hvisits.reports_eq hlisted
  rw [listing_append] at hvisits
  obtain ⟨reports₁, backups₁, u, reports₂, backups₂, rfl, hfirst, hsecond, hlength⟩ :=
    hvisits.exists_split
  rw [listing_append, List.map_append] at hreports
  obtain ⟨rfl, rfl⟩ := List.append_inj hreports (by rw [hlength, List.length_map])
  obtain ⟨s₁, hrun₁, rfl⟩ := hfirst.exists_run_apply hA
  obtain ⟨s₂, hrun₂, rfl⟩ := hsecond.exists_run_apply hB
  exact ⟨s₁, s₂, hrun₁, hrun₂, hleaves⟩

/-- Groups may be applied one part after the other, in either order, or all at once: the files are
the same, and so are the reports of each of them, which the joint run gives in declared order. -/
theorem apply_composes (w : Workspace) (A B C : List Text) (s : Machine)
    (hvalid : w.rules.validate = .ok ()) (hA : A ≠ []) (hB : B ≠ [])
    (hknown : ∀ name, name ∈ A ∨ name ∈ B → w.rules.Knows name) (hapart : ∀ name ∈ A, name ∉ B)
    (hC : ∀ name, name ∈ C ↔ name ∈ A ∨ name ∈ B) (hs : s.files.WellFormed)
    (hreadable : w.Readable s.files (Group.listing (w.rules.chosen C)))
    (hdistinct : w.DistinctFiles s.files (Group.listing (w.rules.chosen C))) :
    let apply (only : List Text) (s : Machine) :=
      (w.apply only false : ExceptT Failure (StateM Machine) ApplyReport).run.run s
    ∃ rA rB rC sA sB sAB sBA sC,
      (apply A s = (.ok rA, sA) ∧ apply B sA = (.ok rB, sAB)) ∧
      (apply B s = (.ok rB, sB) ∧ apply A sB = (.ok rA, sBA)) ∧
      apply C s = (.ok rC, sC) ∧
      (sAB.files.Alike sBA.files ∧ sAB.files.Alike sC.files) ∧
      (∀ path, sBA.files.read path = sAB.files.read path ∧
        sC.files.read path = sAB.files.read path) ∧
      rC.files.Perm (rA.files ++ rB.files) ∧
      rC.files = w.rules.groups.flatMap fun group =>
        (rA.files ++ rB.files).filter (·.group == group.name) := by
  intro apply
  have hgroups := chosen_perm w.rules hA hB hapart hC
  have hgroups' := hgroups.trans List.perm_append_comm
  have hjoint : Separate w s.files (Group.listing (w.rules.chosen C)) :=
    ⟨hs, nodup_listing hvalid C, hdistinct⟩
  -- what a run needs of the joint list, it has for the lists in either order
  have hperm := listing_perm hgroups
  have hperm' := listing_perm hgroups'
  have hknownA : ∀ name ∈ A, w.rules.Knows name := fun name hname => hknown name (Or.inl hname)
  have hknownB : ∀ name ∈ B, w.rules.Knows name := fun name hname => hknown name (Or.inr hname)
  obtain ⟨sA, sAB, hrunA, hrunAB, hleavesAB⟩ :=
    exists_run_apply_twice hknownA hknownB (hjoint.of_perm hperm) (hreadable.of_perm hperm)
  obtain ⟨sB, sBA, hrunB, hrunBA, hleavesBA⟩ :=
    exists_run_apply_twice hknownB hknownA (hjoint.of_perm hperm') (hreadable.of_perm hperm')
  obtain ⟨reports, backups, t, hvisits⟩ := hreadable.exists_visits false hjoint
  have hreports := hvisits.reports_eq hjoint
  subst hreports
  obtain ⟨sC, hrunC, rfl⟩ :=
    hvisits.exists_run_apply fun name hname => hknown name ((hC name).mp hname)
  have halike' : sAB.files.Alike sBA.files :=
    hleavesAB.alike hleavesBA fun _ => hperm.mem_iff.symm.trans hperm'.mem_iff
  have halike : sAB.files.Alike sC.files :=
    hleavesAB.alike (hvisits.leaves hjoint) fun _ => hperm.mem_iff.symm
  refine ⟨_, _, _, sA, sB, sAB, sBA, sC, ⟨hrunA, hrunAB⟩, ⟨hrunB, hrunBA⟩, hrunC,
    ⟨halike', halike⟩, fun path => ⟨halike'.read_eq path, halike.read_eq path⟩, ?_, ?_⟩
  · dsimp only
    rw [← List.map_append, ← listing_append]
    exact hperm.map _
  · have hnodup := (RuleSet.validate_eq_ok_iff.mp hvalid).2.2.1
    dsimp only
    rw [listing_chosen_eq hnodup hgroups, List.map_flatMap, ← List.map_append, ← listing_append]
    refine List.flatMap_congr fun group _ => ?_
    rw [List.filter_map]
    congr 2
    funext l
    exact congrArg (· == group.name) (reportAt_group w s.files l).symm

/-- A workspace with two groups, of one file and of two. -/
def pairing : Workspace where
  commandsDir := defaultDir
  rules := ⟨Notice.standard, [
    { name := ['g'], files := ["a.md".toList], replacements := [⟨['a'], ['b']⟩] },
    { name := ['h'], files := ["b.md".toList, "c.md".toList], replacements := [⟨['b'], ['a']⟩] }]⟩
  source := .builtin

/-- Two groups are applied in either order, and both at once, the second one named first. -/
theorem apply_composes_pairing :
    let s := Machine.ofFiles (doublingFiles (.file (.text ['b']) 0o600) (.link ['x']))
    let apply (only : List Text) (s : Machine) :=
      (pairing.apply only false : ExceptT Failure (StateM Machine) ApplyReport).run.run s
    let listed := Group.listing (pairing.rules.chosen [['h'], ['g'], ['h']])
    (pairing.rules.validate = .ok () ∧ s.files.WellFormed ∧ pairing.Readable s.files listed ∧
        pairing.DistinctFiles s.files listed) ∧
      ∃ rC, (apply [['h'], ['g'], ['h']] s).1 = .ok rC ∧
        rC.files.map (·.status) = [.updated, .updated, .skipped] ∧
        ∀ path,
          (apply [['g']] (apply [['h']] s).2).2.files.read path =
            (apply [['h']] (apply [['g']] s).2).2.files.read path ∧
          (apply [['h'], ['g'], ['h']] s).2.files.read path =
            (apply [['h']] (apply [['g']] s).2).2.files.read path := by
  intro s apply listed
  have hvalid : pairing.rules.validate = .ok () := by decide +kernel
  have hs : s.files.WellFormed := FileTree.wellFormed_of_entries (by decide +kernel)
  have hreadable : pairing.Readable s.files listed := by
    have hread : ∀ l ∈ listed, s.files.isFile (pairing.filePath l.2) = true →
        s.files.read (pairing.filePath l.2) = .ok (.text ['a']) ∨
          s.files.read (pairing.filePath l.2) = .ok (.text ['b']) := by
      decide +kernel
    exact fun l hl hfile => (hread l hl hfile).elim (⟨_, ·⟩) (⟨_, ·⟩)
  have hdistinct : pairing.DistinctFiles s.files listed :=
    distinctFiles_of_locate (by decide +kernel) (by decide +kernel)
  have hknown : ∀ name, name ∈ [['g']] ∨ name ∈ [['h']] → pairing.rules.Knows name := by
    rintro name (hname | hname)
    · exact ⟨_, List.mem_cons_self, (List.mem_singleton.mp hname).symm⟩
    · exact ⟨_, List.mem_cons_of_mem _ List.mem_cons_self, (List.mem_singleton.mp hname).symm⟩
  obtain ⟨rA, rB, rC, sA, sB, sAB, sBA, sC, ⟨hA, hAB⟩, ⟨hB, hBA⟩, hC, -, hsame, -⟩ :=
    apply_composes pairing [['g']] [['h']] [['h'], ['g'], ['h']] s hvalid (by simp) (by simp)
      hknown (by simp) (by simp [or_comm]) hs hreadable hdistinct
  have hstatus : (apply [['h'], ['g'], ['h']] s).1.map (·.files.map (·.status)) =
      .ok [.updated, .updated, .skipped] := by
    decide +kernel
  have hfirst : (apply [['g']] s).2 = sA := congrArg Prod.snd hA
  have hsecond : (apply [['h']] s).2 = sB := congrArg Prod.snd hB
  have hjoint : apply [['h'], ['g'], ['h']] s = (.ok rC, sC) := hC
  have hAB' : (apply [['h']] sA).2 = sAB := congrArg Prod.snd hAB
  have hBA' : (apply [['g']] sB).2 = sBA := congrArg Prod.snd hBA
  rw [hjoint] at hstatus
  refine ⟨⟨hvalid, hs, hreadable, hdistinct⟩, rC, ?_, Except.ok.inj hstatus, ?_⟩
  · rw [hjoint]
  · rw [hfirst, hsecond, hjoint, hAB', hBA']
    exact hsame

end Workspace

end CommandTemplates
