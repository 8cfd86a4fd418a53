import CommandTemplates.Proofs.Document.Agreement
import CommandTemplates.Proofs.Workspace.Realization

/-!
# What a run has done

Every listed file is reported as it was at the start, although the run reads files while it
writes others.  That is so because a visit changes what is read from its own file alone, and no
other listed name leads to that file.

## Main Definitions

* `Workspace.Describes` — a report says what there was to do to a file
* `Workspace.DistinctFiles` — different listed names lead to different files
* `Workspace.Separate` — what a run needs of the listed names

## Main Results

* `Workspace.Visits.read_iff` — a run changes what is read from the files that it visits alone
* `Workspace.Visits.foretold` — every visit could have been made at the start, without writing
* `Workspace.apply_success` — the report, the files after the run, and the dry run
* `Workspace.apply_failure_of_distinct` — a run that fails then changes nothing that is read
-/

namespace CommandTemplates

open FileHost (files)

namespace Workspace

section Visits

variable {w : Workspace} {dryRun : Bool} {group : Group} {file : Text} {t u t' : FileTree}
  {report : FileReport} {listed : List (Group × Text)} {reports : List FileReport}
  {backups : List Backup} {path content : Octets}

/-! ### What a visit leaves alone -/

/-- A visit changes what is read from its own file alone. -/
theorem Visit.read_iff (ht : t.WellFormed) (h : Visit w dryRun group file t report backups t')
    (hpath : ¬ t.SameFile (w.filePath file) path) :
    t'.read path = .ok content ↔ t.read path = .ok content := by
  cases h with
  | missing => rfl
  | kept => rfl
  | written hread hchanged hreal hreplace =>
    obtain ⟨seat, place, mode, hholds⟩ := FileTree.exists_holds_of_read ht hread
    cases (hholds.replace_eq _).symm.trans hreplace
    exact hholds.read_put_of_apart ht hpath _ _

/-- After a visit in a real run, the file that was there is a template. -/
theorem Visit.read_eq (ht : t.WellFormed) (h : Visit w false group file t report backups t')
    {text : Text} (hread : t.read (w.filePath file) = .ok (.text text)) :
    t'.read (w.filePath file) = .ok (.text (w.templateOf group text).content) := by
  cases h with
  | missing hfile =>
    rw [FileTree.isFile_iff.mpr ⟨_, hread⟩] at hfile
    cases hfile
  | kept hread' hkept =>
    cases hread.symm.trans hread'
    rw [hkept.resolve_right Bool.false_ne_true, hread]
  | written hread' hchanged hreal hreplace =>
    cases hread.symm.trans hread'
    obtain ⟨seat, place, mode, hholds⟩ := FileTree.exists_holds_of_read ht hread
    cases (hholds.replace_eq _).symm.trans hreplace
    exact hholds.read_put ht _

/-- A visit in a dry run changes nothing. -/
theorem Visit.eq_of_dry (h : Visit w true group file t report backups t') :
    t' = t ∧ backups = [] := by
  cases h with
  | missing => exact ⟨rfl, rfl⟩
  | kept => exact ⟨rfl, rfl⟩
  | written _ _ hreal => cases hreal

/-- A visit can be made without writing, in any tree where its file reads the same. -/
theorem Visit.foretold (h : Visit w dryRun group file u report backups t')
    (hread : ∀ content, u.read (w.filePath file) = .ok content ↔
      t.read (w.filePath file) = .ok content) :
    Visit w true group file t report [] t := by
  cases h with
  | missing hfile =>
    refine .missing (eq_false_of_ne_true fun hfile' => ?_)
    obtain ⟨content, hcontent⟩ := FileTree.isFile_iff.mp hfile'
    rw [FileTree.isFile_iff.mpr ⟨content, (hread content).mpr hcontent⟩] at hfile
    cases hfile
  | kept hread' => exact .kept ((hread _).mp hread') (Or.inr rfl)
  | written hread' => exact .kept ((hread _).mp hread') (Or.inr rfl)

/-! ### What a run leaves alone -/

/-- A run changes what is read from the files that it visits alone. -/
theorem Visits.read_iff (ht : t.WellFormed) (h : Visits w dryRun t listed reports backups t')
    (hpath : ∀ l ∈ listed, ¬ t.SameFile (w.filePath l.2) path) :
    t'.read path = .ok content ↔ t.read path = .ok content := by
  induction h with
  | nil => rfl
  | cons hvisit _ ih =>
    have hfirst := (hvisit.remembers ht).rewritten
    rw [ih (hfirst.wellFormed ht), hvisit.read_iff ht (hpath _ List.mem_cons_self)]
    exact fun l hl hsame => hpath l (List.mem_cons_of_mem _ hl) (hsame.of_rewritten hfirst ht)

/-- A run changes what stands at the places that listed names name alone. -/
theorem Visits.entryAt?_eq (ht : t.WellFormed) (h : Visits w dryRun t listed reports backups t')
    {place : Place} (hplace : ∀ l ∈ listed, t.place? (w.filePath l.2) ≠ some place) :
    t'.entryAt? place = t.entryAt? place := by
  refine (h.remembers ht).untouched place ?_
  rw [Option.eq_none_iff_forall_ne_some]
  intro b hb
  obtain ⟨hmem, hnamed⟩ := FileTree.oldestBackup?_spec hb
  obtain ⟨l, hl, hpath⟩ := h.exists_listed b hmem
  exact hplace l hl (by rw [filePath, ← hpath]; exact hnamed)

/-- Visits that write nothing leave the tree as it is. -/
theorem Visits.eq_of_dry (h : Visits w true t listed reports backups t') : t' = t := by
  induction h with
  | nil => rfl
  | cons hvisit _ ih => exact ih.trans hvisit.eq_of_dry.1

/-! ### Distinct files -/

/-- Different listed names lead to different files.  Names are different in a valid rule set, but
links may still lead two of them to one file. -/
def DistinctFiles (w : Workspace) (t : FileTree) (listed : List (Group × Text)) : Prop :=
  ∀ l ∈ listed, ∀ l' ∈ listed, t.SameFile (w.filePath l.2) (w.filePath l'.2) → l.2 = l'.2

/-- Names that lead to different files still do so after rewriting. -/
theorem DistinctFiles.of_rewritten (h : DistinctFiles w t listed) (hu : t.Rewritten u)
    (ht : t.WellFormed) : DistinctFiles w u listed :=
  fun l hl l' hl' hsame => h l hl l' hl' (hsame.of_rewritten hu ht)

/-- Leaving out a name keeps the others apart. -/
theorem DistinctFiles.tail {l : Group × Text} (h : DistinctFiles w t (l :: listed)) :
    DistinctFiles w t listed :=
  fun a ha b hb => h a (List.mem_cons_of_mem _ ha) b (List.mem_cons_of_mem _ hb)

/-- No name is listed twice, so the first one leads to another file than those after it. -/
theorem DistinctFiles.head {l : Group × Text} (h : DistinctFiles w t (l :: listed))
    (hnodup : ((l :: listed).map (·.2)).Nodup) :
    ∀ l' ∈ listed, ¬ t.SameFile (w.filePath l.2) (w.filePath l'.2) := by
  intro l' hl' hsame
  rw [List.map_cons, List.nodup_cons] at hnodup
  exact hnodup.1 (List.mem_map.mpr
    ⟨l', hl', (h l List.mem_cons_self l' (List.mem_cons_of_mem _ hl') hsame).symm⟩)

/-- Files that can be found are different when they are found at different spots. -/
theorem distinctFiles_of_locate
    (hok : ∀ l ∈ listed, (t.locate true (w.filePath l.2)).isOk = true)
    (hne : ∀ l ∈ listed, ∀ l' ∈ listed,
      t.locate true (w.filePath l.2) = t.locate true (w.filePath l'.2) → l.2 = l'.2) :
    DistinctFiles w t listed := by
  rintro l hl l' hl' ⟨file, content, mode, hleads, hleads'⟩
  refine hne l hl l' hl' ?_
  rw [hleads.locate_eq (hok l hl), hleads'.locate_eq (hok l' hl')]

/-- What a run needs of the listed names: none is listed twice, and no two lead to one file. -/
structure Separate (w : Workspace) (t : FileTree) (listed : List (Group × Text)) : Prop where
  wellFormed : t.WellFormed
  nodup : (listed.map (·.2)).Nodup
  distinct : DistinctFiles w t listed

/-- A visit keeps the names after it separate, and what is read from their files. -/
theorem Separate.visit (h : Separate w t ((group, file) :: listed))
    (hvisit : Visit w dryRun group file t report backups t') :
    Separate w t' listed ∧ ∀ l ∈ listed, ∀ content,
      t'.read (w.filePath l.2) = .ok content ↔ t.read (w.filePath l.2) = .ok content := by
  have hfirst := (hvisit.remembers h.wellFormed).rewritten
  refine ⟨⟨hfirst.wellFormed h.wellFormed, (List.nodup_cons.mp h.nodup).2,
    h.distinct.tail.of_rewritten hfirst h.wellFormed⟩, fun l hl content => ?_⟩
  exact hvisit.read_iff h.wellFormed (h.distinct.head h.nodup l hl)

/-- Every visit of a run could have been made at the start, without writing.  The visits before it
wrote other files only, so its own file still holds what it held. -/
theorem Visits.foretold (hlisted : Separate w t listed)
    (h : Visits w dryRun t listed reports backups t')
    (hread : ∀ l ∈ listed, ∀ content,
      t.read (w.filePath l.2) = .ok content ↔ u.read (w.filePath l.2) = .ok content) :
    List.Forall₂ (fun l report => Visit w true l.1 l.2 u report [] u) listed reports := by
  induction h with
  | nil => exact .nil
  | cons hvisit _ ih =>
    obtain ⟨hrest, hsame⟩ := hlisted.visit hvisit
    refine .cons (hvisit.foretold (hread _ List.mem_cons_self)) (ih hrest fun l hl content => ?_)
    rw [hsame l hl]
    exact hread l (List.mem_cons_of_mem _ hl) content

/-- A run remembers what its files held at the start. -/
theorem Visits.read_backup (hlisted : Separate w t listed)
    (h : Visits w dryRun t listed reports backups t')
    (hread : ∀ l ∈ listed, ∀ content,
      t.read (w.filePath l.2) = .ok content ↔ u.read (w.filePath l.2) = .ok content) :
    ∀ b ∈ backups, u.read (.text b.path) = .ok b.content := by
  induction h with
  | nil => exact nofun
  | cons hvisit _ ih =>
    intro b hb
    rcases List.mem_append.mp hb with hb | hb
    · obtain ⟨hrest, hsame⟩ := hlisted.visit hvisit
      refine ih hrest (fun l hl content => ?_) b hb
      rw [hsame l hl]
      exact hread l (List.mem_cons_of_mem _ hl) content
    · obtain ⟨hpath, hcontent⟩ := hvisit.of_mem_backups b hb
      rw [hpath]
      exact (hread _ List.mem_cons_self _).mp hcontent

/-- After a real run, every listed file that was there is a template. -/
theorem Visits.read_eq (hlisted : Separate w t listed)
    (h : Visits w false t listed reports backups t') :
    ∀ l ∈ listed, ∀ text, t.read (w.filePath l.2) = .ok (.text text) →
      t'.read (w.filePath l.2) = .ok (.text (w.templateOf l.1 text).content) := by
  induction h with
  | nil => exact nofun
  | @cons group file t report backups t₁ listed reports backups' t₂ hvisit hvisits ih =>
    intro l hl text hread
    obtain ⟨hrest, hsame⟩ := hlisted.visit hvisit
    rcases List.mem_cons.mp hl with rfl | hl'
    · -- the file is a template after its own visit, and those that follow do not touch it
      have hfirst := (hvisit.remembers hlisted.wellFormed).rewritten
      rw [hvisits.read_iff hrest.wellFormed fun l' hl' hboth =>
        hlisted.distinct.head hlisted.nodup l' hl'
          (hboth.of_rewritten hfirst hlisted.wellFormed).symm]
      exact hvisit.read_eq hlisted.wellFormed hread
    · exact ih hrest l hl' text ((hsame l hl' _).mpr hread)

/-! ### What is reported -/

/-- A report says what there is to do to a file: nothing if it is not there, and else what making
a template of it does.  A file is not updated without something to show for it. -/
structure Describes (w : Workspace) (t : FileTree) (group : Group) (file : Text)
    (report : FileReport) : Prop where
  file_eq : report.file = file
  group_eq : report.group = group.name
  skipped_iff : report.status = .skipped ↔ t.isFile (w.filePath file) = false
  of_skipped : report.status = .skipped → report = .missing file group
  of_isFile : t.isFile (w.filePath file) = true →
    ∃ content, t.read (w.filePath file) = .ok (.text content) ∧
      let template := group.generalize w.rules.notice content
      (report.status = .updated ↔ template.content ≠ content) ∧
        (report.status = .unchanged ↔ template.content = content) ∧
        report.noticeAdded = template.noticeAdded ∧ report.guideAdded = template.guideAdded ∧
        report.replacements = template.replacements
  of_updated : report.status = .updated →
    report.noticeAdded = true ∨ report.guideAdded = true ∨ report.replacements ≠ []

/-- A text that changes has something to show for it: a notice, a guide, or a replacement that is
counted. -/
theorem exists_change_of_content_ne {text : Text} (h : (w.templateOf group text).content ≠ text) :
    (w.templateOf group text).noticeAdded = true ∨ (w.templateOf group text).guideAdded = true ∨
      (w.templateOf group text).replacements ≠ [] := by
  by_contra hnone
  -- with nothing to show, nothing was done
  rw [not_or, not_or, Bool.not_eq_true, Bool.not_eq_true, not_not] at hnone
  have hnoop := Group.generalize_of_isNoop (Template.isNoop_iff.mpr hnone)
  exact h (congrArg Template.content hnoop)

theorem reportOf_status (w : Workspace) (group : Group) (file text : Text) :
    (w.reportOf group file text).status =
      if (w.templateOf group text).content = text then .unchanged else .updated := rfl

/-- The report of a text describes the file that holds it. -/
theorem describes_reportOf {text : Text} (hread : t.read (w.filePath file) = .ok (.text text)) :
    Describes w t group file (w.reportOf group file text) := by
  have hfile : t.isFile (w.filePath file) = true := FileTree.isFile_iff.mpr ⟨_, hread⟩
  by_cases hsame : (w.templateOf group text).content = text
  · -- the text stays as it is
    have hstatus : (w.reportOf group file text).status = .unchanged := by
      rw [reportOf_status, if_pos hsame]
    refine ⟨rfl, rfl, ?_, ?_, fun _ => ⟨text, hread, ?_, ?_, rfl, rfl, rfl⟩, ?_⟩
    · rw [hstatus, hfile]
      exact iff_of_false nofun nofun
    · rw [hstatus]
      exact nofun
    · rw [hstatus]
      exact iff_of_false nofun (not_not_intro hsame)
    · exact iff_of_true hstatus hsame
    · rw [hstatus]
      exact nofun
  · -- the text changes
    have hstatus : (w.reportOf group file text).status = .updated := by
      rw [reportOf_status, if_neg hsame]
    refine ⟨rfl, rfl, ?_, ?_, fun _ => ⟨text, hread, ?_, ?_, rfl, rfl, rfl⟩, fun _ => ?_⟩
    · rw [hstatus, hfile]
      exact iff_of_false nofun nofun
    · rw [hstatus]
      exact nofun
    · exact iff_of_true hstatus hsame
    · rw [hstatus]
      exact iff_of_false nofun hsame
    · exact exists_change_of_content_ne hsame

/-- What a visit reports says what there was to do. -/
theorem Visit.describes (h : Visit w dryRun group file t report backups t') :
    Describes w t group file report := by
  cases h with
  | missing hfile =>
    refine ⟨rfl, rfl, iff_of_true rfl hfile, fun _ => rfl, ?_, nofun⟩
    rw [hfile]
    exact nofun
  | kept hread => exact describes_reportOf hread
  | written hread => exact describes_reportOf hread

end Visits

/-! ### Runs that succeed -/

/-- No name is listed twice. -/
theorem nodup_listing {w : Workspace} (hvalid : w.rules.validate = .ok ()) (only : List Text) :
    ((Group.listing (w.rules.chosen only)).map (·.2)).Nodup := by
  rw [map_snd_listing]
  exact RuleSet.nodup_files_chosen hvalid only

/-- A run that succeeds reports every listed file of the chosen groups, in order, as it was at the
start.  In a real run every one of them that was there is a template after it, and all else is as
it was; a dry run changes nothing.  A dry run from the same start succeeds with the same report
of every file. -/
theorem apply_success (w : Workspace) (only : List Text) (dryRun : Bool) (s s' : Machine)
    (report : ApplyReport) (hvalid : w.rules.validate = .ok ()) (hs : s.files.WellFormed)
    (hdistinct : w.DistinctFiles s.files (Group.listing (w.rules.chosen only)))
    (h : (w.apply only dryRun : ExceptT Failure (StateM Machine) ApplyReport).run.run s =
      (.ok report, s')) :
    let listed := Group.listing (w.rules.chosen only)
    report.dryRun = dryRun ∧
      List.Forall₂ (fun l r => w.Describes s.files l.1 l.2 r) listed report.files ∧
      (dryRun = true → s'.files = s.files) ∧
      (dryRun = false → ∀ l ∈ listed, ∀ text,
        s.files.read (w.filePath l.2) = .ok (.text text) →
          s'.files.read (w.filePath l.2) =
            .ok (.text (l.1.generalize w.rules.notice text).content)) ∧
      (∀ place, (∀ l ∈ listed, s.files.place? (w.filePath l.2) ≠ some place) →
        s'.files.entryAt? place = s.files.entryAt? place) ∧
      (∀ path, (∀ l ∈ listed, ¬ s.files.SameFile (w.filePath l.2) path) →
        ∀ content, s'.files.read path = .ok content ↔ s.files.read path = .ok content) ∧
      ∃ s'', (w.apply only true : ExceptT Failure (StateM Machine) ApplyReport).run.run s =
        (.ok ⟨true, report.files⟩, s'') ∧ s''.files = s.files := by
  intro listed
  obtain ⟨groups, reports, tx, s₁, hselect, rfl, hrun, hfiles⟩ := run_apply_eq_ok h
  obtain ⟨honly, rfl⟩ := RuleSet.select_eq_ok_iff.mp hselect
  obtain ⟨backups, -, hvisits⟩ := visits_of_generalizeFiles hrun
  rw [← hfiles] at hvisits
  have hlisted : w.Separate s.files listed := ⟨hs, nodup_listing hvalid only, hdistinct⟩
  have hforetold := hvisits.foretold hlisted fun _ _ _ => Iff.rfl
  refine ⟨rfl, hforetold.imp fun _ _ hvisit => hvisit.describes, ?_, ?_, ?_, ?_,
    (visits_of_dry hforetold).exists_run_apply honly⟩
  · rintro rfl
    exact hvisits.eq_of_dry
  · rintro rfl
    exact hvisits.read_eq hlisted
  · exact fun place hplace => hvisits.entryAt?_eq hs hplace
  · exact fun path hpath content => hvisits.read_iff hs hpath

/-- One file is updated, one is a template already, and one is a link that leads nowhere. -/
theorem apply_success_doubling :
    let s := Machine.ofFiles (doublingFiles (.file (.text ['b']) 0o600) (.link ['x']))
    let listed := Group.listing (doubling.rules.chosen [])
    let done := (doubling.apply [] false : ExceptT Failure (StateM Machine) ApplyReport).run.run s
    let report : ApplyReport :=
      ⟨false, [⟨"a.md".toList, ['g'], .updated, false, false, [⟨⟨['a'], ['a', 'a']⟩, 1⟩]⟩,
        ⟨"b.md".toList, ['g'], .unchanged, false, false, []⟩,
        ⟨"c.md".toList, ['g'], .skipped, false, false, []⟩]⟩
    (doubling.rules.validate = .ok () ∧ s.files.WellFormed ∧
        doubling.DistinctFiles s.files listed ∧ done.1 = .ok report) ∧
      List.Forall₂ (fun l r => doubling.Describes s.files l.1 l.2 r) listed report.files ∧
      done.2.files.read (doubling.filePath "a.md".toList) = .ok (.text ['a', 'a']) ∧
      ∃ s'', (doubling.apply [] true : ExceptT Failure (StateM Machine) ApplyReport).run.run s =
        (.ok ⟨true, report.files⟩, s'') ∧ s''.files = s.files := by
  intro s listed done report
  have hvalid : doubling.rules.validate = .ok () := by decide +kernel
  have hs : s.files.WellFormed := FileTree.wellFormed_of_entries (by decide +kernel)
  have hdistinct : doubling.DistinctFiles s.files listed :=
    distinctFiles_of_locate (by decide +kernel) (by decide +kernel)
  have hreport : done.1 = .ok report := by decide +kernel
  obtain ⟨-, hfiles, -, htemplates, -, -, hdry⟩ :=
    apply_success doubling [] false s done.2 report hvalid hs hdistinct (Prod.ext hreport rfl)
  refine ⟨⟨hvalid, hs, hdistinct, hreport⟩, hfiles, ?_, hdry⟩
  have hcontent : (doublingGroup.generalize doubling.rules.notice ['a']).content = ['a', 'a'] := by
    decide +kernel
  rw [← hcontent]
  exact htemplates rfl (doublingGroup, "a.md".toList) List.mem_cons_self ['a'] (by decide +kernel)

/-! ### Runs that fail -/

section Fail

variable {σ : Type} [Host (StateM σ)] [FileHost σ] {w : Workspace} {only : List Text}
  {dryRun : Bool} {s s' : σ}

/-- A run that fails changes nothing that is read, as long as different names lead to different
files. -/
theorem apply_failure_of_distinct {failure : Failure} (hvalid : w.rules.validate = .ok ())
    (hs : (files s).WellFormed)
    (hdistinct : w.DistinctFiles (files s) (Group.listing (w.rules.chosen only)))
    (h : (w.apply only dryRun : ExceptT Failure (StateM σ) ApplyReport).run.run s =
      (.error failure, s')) (path content : Octets) :
    (files s').Yields path content ↔ (files s).Yields path content := by
  obtain ⟨written, hfails, hrolled⟩ := exists_rolledBack hs h
  refine (hrolled.yields_iff hs).mpr (FileTree.linksKept_of_read ?_) path content
  cases hfails with
  | unknownGroup => exact nofun
  | stuck _ hlisting hbefore =>
    obtain ⟨backups, heq, hvisits⟩ := visits_of_generalizeFiles hbefore
    rw [List.append_nil] at heq
    cases heq
    refine hvisits.read_backup ⟨hs, ?_, ?_⟩ fun _ _ _ => Iff.rfl
    · have hnodup := nodup_listing hvalid only
      rw [hlisting, List.map_append] at hnodup
      exact hnodup.of_append_left
    · rw [hlisting] at hdistinct
      exact fun l hl l' hl' =>
        hdistinct l (List.mem_append_left _ hl) l' (List.mem_append_left _ hl')

end Fail

end Workspace

end CommandTemplates
