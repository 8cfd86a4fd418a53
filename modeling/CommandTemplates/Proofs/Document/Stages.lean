import CommandTemplates.Proofs.Document.Replacement
import CommandTemplates.Proofs.Text.Gaps

/-!
# Replacement stage by stage

A list of replacements takes a text through stages, one after each replacement.  At each stage the
replacement finds the leftmost matches of its literal that do not overlap, puts its substitute in
their place and leaves the gaps between them; it is reported with the number of these matches.

* `stage` — the text after some of the replacements
* `applyAll_snd` — the report counts every replacement at its own stage
* `applyAll_gaps` — the gaps of every stage, what becomes of them, and what is reported
-/

namespace CommandTemplates.Replacement

open Text

variable {text : Text} {r : Replacement} {rs : List Replacement}

/-- The text after the first replacements of a list. -/
def stage (text : Text) (rs : List Replacement) (i : Nat) : Text := (applyAll text (rs.take i)).1

theorem stage_length : stage text rs rs.length = (applyAll text rs).1 := by
  rw [stage, List.take_length]

/-- From one stage to the next, one replacement is applied. -/
theorem stage_succ (i : Fin rs.length) : stage text rs (i + 1) = rs[i].apply (stage text rs i) := by
  rw [stage, List.take_succ_eq_append_getElem i.isLt, applyAll_append_fst, applyAll_fst_cons]
  rfl

/-- After the first replacement the others begin with what it made. -/
theorem stage_cons_succ (i : Nat) : stage text (r :: rs) (i + 1) = stage (r.apply text) rs i := by
  rw [stage, List.take_succ_cons, applyAll_fst_cons, stage]

/-- Every replacement is counted at its own stage, and those that match nothing are left out. -/
theorem applyAll_snd : (applyAll text rs).2 =
    (List.ofFn fun i : Fin rs.length =>
      ReplacementCount.mk rs[i] (occurrences rs[i].literal (stage text rs i))).filter
        (0 < ·.count) := by
  induction rs generalizing text with
  | nil => rfl
  | cons r rs ih =>
    rw [applyAll_cons, List.ofFn_succ, ih]
    simp only [Fin.getElem_fin, Fin.val_succ, List.getElem_cons_succ, stage_cons_succ]
    exact (List.filter_append [_] _).symm

/-- Every replacement finds the leftmost matches that do not overlap in the text that those before
it made: the gaps between them are the only ones of that text, the next text is the same gaps around
the substitute, and the report has every replacement with a match, with the number of its
matches. -/
theorem applyAll_gaps (text : Text) {rs : List Replacement} (hrs : ∀ r ∈ rs, r.literal ≠ []) :
    stage text rs 0 = text ∧ stage text rs rs.length = (applyAll text rs).1 ∧
      ∃ gaps : Fin rs.length → List Text,
        (∀ i : Fin rs.length, IsGaps rs[i].literal (stage text rs i) (gaps i) ∧
          (∀ others, IsGaps rs[i].literal (stage text rs i) others → others = gaps i) ∧
          stage text rs (i + 1) = List.intercalate rs[i].substitute (gaps i)) ∧
        (applyAll text rs).2 =
          (List.ofFn fun i : Fin rs.length => ReplacementCount.mk rs[i] ((gaps i).length - 1)).filter
            (0 < ·.count) := by
  choose gaps hgaps hunique using fun i : Fin rs.length =>
    existsUnique_isGaps (hrs rs[i] (List.getElem_mem i.isLt)) (stage text rs i)
  refine ⟨rfl, stage_length, gaps, fun i => ⟨hgaps i, hunique i, ?_⟩, ?_⟩
  · rw [stage_succ]
    exact (hgaps i).replaceAll_eq _
  · rw [applyAll_snd]
    simp only [(hgaps _).occurrences_eq]

/-- Matches that overlap, a substitute that brings in new ones, and a literal that is not there. -/
theorem applyAll_gaps_overlapping :
    let text := "aaa".toList
    let rs : List Replacement :=
      [⟨"aa".toList, "aab".toList⟩, ⟨"c".toList, []⟩, ⟨"a".toList, "aa".toList⟩]
    (∀ r ∈ rs, r.literal ≠ []) ∧
      stage text rs 0 = text ∧ stage text rs rs.length = (applyAll text rs).1 ∧
        ∃ gaps : Fin rs.length → List Text,
          (∀ i : Fin rs.length, IsGaps rs[i].literal (stage text rs i) (gaps i) ∧
            (∀ others, IsGaps rs[i].literal (stage text rs i) others → others = gaps i) ∧
            stage text rs (i + 1) = List.intercalate rs[i].substitute (gaps i)) ∧
          (applyAll text rs).2 =
            (List.ofFn fun i : Fin rs.length =>
              ReplacementCount.mk rs[i] ((gaps i).length - 1)).filter (0 < ·.count) := by
  intro text rs
  have hrs : ∀ r ∈ rs, r.literal ≠ [] := by decide
  exact ⟨hrs, applyAll_gaps text hrs⟩

end CommandTemplates.Replacement
