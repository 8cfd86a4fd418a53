import CommandTemplates.Proofs.Host.SearchingHost
import CommandTemplates.Proofs.Text.Order
import CommandTemplates.Workspace.Search

/-!
# What a search finds

A search is settled by the steps of the walk that it goes through.  Every file that the walk comes
to is looked at once; it is found if it is a Markdown file, whatever else the walk could not come
to.  What the walk could not come to is reported, fault by fault.

## Main Definitions

* `MarkdownFiles.ofSteps` — what a search makes of the steps of a walk

## Main Results

* `MarkdownFiles.exists_run_search` — a search goes through the steps of a walk
* `FileTree.Walked.mem_names_iff` — the Markdown files that the walk comes to are found
* `FileTree.Walked.pairwise_names` — each of them once, in the order of the names
-/

namespace CommandTemplates

open SteadyHost (sight)

namespace MarkdownFiles

/-- What a search makes of the steps of a walk. -/
def ofSteps (root : Text) (steps : List WalkStep) : MarkdownFiles where
  names := Text.sorted ((entriesOf steps).filterMap (nameOf? root))
  unreadable := (faultsOf steps).map (·.shownPath root)

/-! ### The run -/

section Run

variable {σ : Type} [Host (StateM σ)] [SteadyHost σ] {root : Text} {steps : List WalkStep}
  {s s' : σ}

open Sight (Gives)

/-- Going through the steps of a walk keeps the names and the faults, in order. -/
theorem gives_collect (v : Sight) (root : Text) (steps : List WalkStep) :
    v.Gives (σ := σ) (collect root steps)
      (.ok ⟨(entriesOf steps).filterMap (nameOf? root),
        (faultsOf steps).map (·.shownPath root)⟩) := by
  have hsteps := Gives.stepwise (σ := σ) v
  induction steps with
  | nil => exact hsteps.pure _
  | cons step steps ih =>
    cases step with
    | error fault =>
      refine hsteps.bind_ok (.note v _) (hsteps.bind_ok ih ?_)
      exact hsteps.pure _
    | ok entry =>
      refine hsteps.bind_ok ih ?_
      rw [entriesOf_ok_cons, List.filterMap_cons]
      cases nameOf? root entry with
      | none => exact hsteps.pure _
      | some name => exact hsteps.pure _

/-- A search goes through the steps of a walk. -/
theorem exists_run_search
    (hwalk : (Host.walkDir root : StateM σ (List WalkStep)).run s = (steps, s'))
    (hsight : sight s' = sight s) :
    ∃ s'', (search root : ExceptT Failure (StateM σ) MarkdownFiles).run.run s =
      (.ok (ofSteps root steps), s'') ∧ sight s'' = sight s := by
  have hlift : (Host.walkDir root : ExceptT Failure (StateM σ) (List WalkStep)).run.run s =
      (.ok steps, s') := run_of_lift hwalk
  obtain ⟨s'', hcollect, hs''⟩ := gives_collect (sight s) root steps s' hsight
  refine ⟨s'', ?_, hs''⟩
  rw [search, run_bind_of_ok hlift, run_bind_of_ok hcollect]
  rfl

end Run

end MarkdownFiles

/-! ### The names -/

namespace FileTree

variable {t : FileTree} {root : Text} {steps : List WalkStep} {dir rel : Place} {mode : Nat}
  {entry : FileEntry} {content : Octets} {name : Text} {e : WalkEntry}

open MarkdownFiles (nameOf? ofSteps)

/-- What is below a directory is named by its place, if it is a Markdown file. -/
theorem Orderly.nameOf?_below (ht : t.Orderly) (hrel : rel ≠ [])
    (hentry : t.entryAt? (dir ++ rel) = some entry) :
    nameOf? root ⟨Path.below (.text root) rel, entry.isFile⟩ =
      if entry.isFile && rel.getLast?.any Path.isMarkdownName then some (shownPlace rel)
      else none := by
  have hnames := ht.isName_of_below hentry
  rw [nameOf?, IsName.below_eq hrel hnames, IsName.isMarkdown_join hrel hnames,
    MarkdownFiles.relativeName?, IsName.components_join hrel hnames]
  dsimp only
  rw [if_pos (List.isPrefixOf_iff_prefix.mpr (List.prefix_append _ rel)), List.drop_left]

/-- The name of a Markdown file is how its place is shown. -/
theorem MarkdownBelow.nameOf?_eq (h : t.MarkdownBelow dir rel content) (ht : t.Orderly) :
    nameOf? root ⟨Path.below (.text root) rel, true⟩ = some (shownPlace rel) := by
  obtain ⟨mode, hentry⟩ := h.isFile
  obtain ⟨last, hlast, hmarkdown⟩ := h.isMarkdown
  refine (ht.nameOf?_below h.ne_nil hentry).trans (if_pos ?_)
  rw [hlast]
  exact hmarkdown

namespace Walked

/-- An entry with a name is a Markdown file below the directory. -/
theorem exists_markdownBelow (h : t.Walked root steps) (ht : t.Orderly)
    (hroot : t.isFile (.text root) = false) (he : e ∈ entriesOf steps)
    (hname : nameOf? root e = some name) :
    ∃ dir mode rel content, t.find (.text root) = .ok (dir, .dir mode) ∧
      t.MarkdownBelow dir rel content ∧ e = ⟨Path.below (.text root) rel, true⟩ ∧
      name = shownPlace rel := by
  rcases h.sound e he with ⟨-, hfile⟩ | ⟨dir, mode, rel, entry, hdir, hrel, hentry, rfl⟩
  · -- the directory itself is no file
    rw [nameOf?] at hname
    split at hname
    · next hmarkdown =>
      rw [Bool.and_eq_true] at hmarkdown
      rw [hfile hmarkdown.1] at hroot
      cases hroot
    · cases hname
  · rw [ht.nameOf?_below hrel hentry] at hname
    split at hname
    · next hmarkdown =>
      cases hname
      rw [Bool.and_eq_true, Option.any_eq_true] at hmarkdown
      obtain ⟨hfile, hlast⟩ := hmarkdown
      cases entry with
      | file content mode' =>
        exact ⟨dir, mode, rel, content, hdir, ⟨⟨mode', hentry⟩, hlast⟩, rfl, rfl⟩
      | dir mode' => cases hfile
      | link target => cases hfile
    · cases hname

/-- What a search finds are the Markdown files that the walk comes to. -/
theorem mem_names_iff (h : t.Walked root steps) (ht : t.Orderly)
    (hroot : t.isFile (.text root) = false) :
    name ∈ (ofSteps root steps).names ↔
      ∃ dir mode rel content, t.find (.text root) = .ok (dir, .dir mode) ∧
        t.MarkdownBelow dir rel content ∧
        ⟨Path.below (.text root) rel, true⟩ ∈ entriesOf steps ∧ name = shownPlace rel := by
  rw [ofSteps, Text.mem_sorted, List.mem_filterMap]
  constructor
  · rintro ⟨e, he, hname⟩
    obtain ⟨dir, mode, rel, content, hdir, hmarkdown, rfl, rfl⟩ :=
      h.exists_markdownBelow ht hroot he hname
    exact ⟨dir, mode, rel, content, hdir, hmarkdown, he, rfl⟩
  · rintro ⟨dir, mode, rel, content, hdir, hmarkdown, he, rfl⟩
    exact ⟨_, he, hmarkdown.nameOf?_eq ht⟩

/-- They are found once each, in the order of their names. -/
theorem pairwise_names (h : t.Walked root steps) (ht : t.Orderly)
    (hroot : t.isFile (.text root) = false) :
    (ofSteps root steps).names.Pairwise fun name name' => Text.before name name' = true := by
  refine Text.pairwise_sorted (List.pairwise_filterMap.mpr ?_)
  refine h.once.imp_of_mem fun he he' hne name hname name' hname' heq => hne ?_
  obtain ⟨dir, mode, rel, content, hdir, hmarkdown, rfl, rfl⟩ :=
    h.exists_markdownBelow ht hroot he hname
  obtain ⟨dir', mode', rel', content', hdir', hmarkdown', rfl, rfl⟩ :=
    h.exists_markdownBelow ht hroot he' hname'
  cases hdir.symm.trans hdir'
  obtain ⟨_, hentry⟩ := hmarkdown.isFile
  obtain ⟨_, hentry'⟩ := hmarkdown'.isFile
  rw [ht.shownPlace_inj hmarkdown.ne_nil hmarkdown'.ne_nil hentry hentry' heq]

end Walked

end FileTree

end CommandTemplates
