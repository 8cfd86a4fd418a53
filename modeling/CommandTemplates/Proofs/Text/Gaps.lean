import CommandTemplates.Proofs.Text.Occurrence

/-!
# What a scan leaves between its matches

A scan from left to right takes the first occurrence of a pattern, then the first one behind it, and
so on.  What it leaves before, between and behind its matches are the gaps of the text.  They are
described here without a search, and there is exactly one list of them; replacing and counting are
both read off this list.

## Main Definitions

* `IsGaps` — the gaps between the leftmost occurrences that do not overlap

## Main Results

* `existsUnique_isGaps` — every text has its gaps, and no others
* `IsGaps.replaceAll_eq` — a replacement joins the same gaps by its substitute
* `IsGaps.occurrences_eq` — a scan counts one match less than there are gaps
-/

namespace CommandTemplates.Text

variable {pattern text before after gap : Text} {gaps : List Text}

/-- The texts before, between and behind the leftmost occurrences of a pattern that do not
overlap. -/
structure IsGaps (pattern text : Text) (gaps : List Text) : Prop where
  ne_nil : gaps ≠ []
  joined : List.intercalate pattern gaps = text
  /-- In a gap followed by the pattern, the pattern begins nowhere but behind the gap. -/
  first : ∀ gap ∈ gaps.dropLast, ∀ before after,
    gap ++ pattern = before ++ pattern ++ after → before = gap
  /-- In the last gap there is no pattern left. -/
  last : ∀ gap ∈ gaps.getLast?, ¬ pattern <:+: gap

/-! ### One gap after the other -/

/-- The pattern begins nowhere but behind a gap when it is not in the gap followed by all but its
last character. -/
theorem forall_begins_behind_iff (hp : pattern ≠ []) :
    (∀ before after, gap ++ pattern = before ++ pattern ++ after → before = gap) ↔
      ¬ pattern <:+: gap ++ pattern.dropLast := by
  have hlast := List.dropLast_concat_getLast hp
  constructor
  · rintro h ⟨before, after, heq⟩
    have hbefore : before = gap := by
      refine h before (after ++ [pattern.getLast hp]) ?_
      rw [← List.append_assoc, heq, List.append_assoc, hlast]
    -- then there would be a whole pattern in all but its last character
    subst hbefore
    have hlength := congrArg List.length heq
    have hpos := List.length_pos_iff.mpr hp
    simp only [List.length_append, List.length_dropLast] at hlength
    omega
  · intro h before after heq
    rcases List.eq_nil_or_concat after with rfl | ⟨after, c, rfl⟩
    · rw [List.append_nil] at heq
      exact (List.append_cancel_right heq).symm
    · -- an earlier one would end before the last character
      have heq' : gap ++ pattern.dropLast ++ [pattern.getLast hp] =
          before ++ pattern ++ after ++ [c] := by
        rw [List.append_assoc gap, hlast, heq, List.concat_eq_append, List.append_assoc _ after]
      exact absurd ⟨before, after, (List.append_inj_left' heq' rfl).symm⟩ h

/-- A text without the pattern is its only gap. -/
theorem isGaps_singleton_iff : IsGaps pattern text [gap] ↔ gap = text ∧ ¬ pattern <:+: gap := by
  constructor
  · intro h
    exact ⟨by simpa using h.joined, h.last gap rfl⟩
  · rintro ⟨rfl, h⟩
    refine ⟨List.cons_ne_nil _ _, List.intercalate_singleton, nofun, ?_⟩
    rintro _ ⟨⟩
    exact h

/-- The first of several gaps is what stands before the first occurrence, and the others are the
gaps of what stands behind it. -/
theorem isGaps_cons_iff (hp : pattern ≠ []) (hgaps : gaps ≠ []) :
    IsGaps pattern text (gap :: gaps) ↔
      ∃ rest, cut pattern text = some (gap, rest) ∧ IsGaps pattern rest gaps := by
  have hjoin : List.intercalate pattern (gap :: gaps) =
      gap ++ pattern ++ List.intercalate pattern gaps := List.intercalate_cons_of_ne_nil hgaps
  have hlast : (gap :: gaps).getLast? = gaps.getLast? := List.getLast?_cons_of_ne_nil hgaps
  constructor
  · rintro ⟨-, hjoined, hfirst, hend⟩
    rw [List.dropLast_cons_of_ne_nil hgaps, List.forall_mem_cons] at hfirst
    rw [hlast] at hend
    refine ⟨List.intercalate pattern gaps, ?_, hgaps, rfl, hfirst.2, hend⟩
    rw [cut_eq_some_iff hp, ← hjoined, hjoin]
    exact ⟨rfl, (forall_begins_behind_iff hp).mp hfirst.1⟩
  · rintro ⟨rest, hcut, -, rfl, hfirst, hend⟩
    obtain ⟨rfl, hgap⟩ := (cut_eq_some_iff hp).mp hcut
    refine ⟨List.cons_ne_nil _ _, hjoin, ?_, hlast ▸ hend⟩
    rw [List.dropLast_cons_of_ne_nil hgaps, List.forall_mem_cons]
    exact ⟨(forall_begins_behind_iff hp).mpr hgap, hfirst⟩

/-! ### Along a scan -/

/-- A text without the pattern is all one gap. -/
theorem isGaps_iff_of_absent (h : ¬ pattern <:+: text) :
    IsGaps pattern text gaps ↔ gaps = [text] := by
  constructor
  · intro hgaps
    match gaps, hgaps.ne_nil with
    | [gap], _ => rw [(isGaps_singleton_iff.mp hgaps).1]
    | gap :: gap' :: gaps', _ =>
      have hp : pattern ≠ [] := fun hnil => h (hnil ▸ List.nil_infix)
      obtain ⟨rest, hcut, -⟩ := (isGaps_cons_iff hp (List.cons_ne_nil _ _)).mp hgaps
      rw [cut_eq_none_iff.mpr h] at hcut
      cases hcut
  · rintro rfl
    exact isGaps_singleton_iff.mpr ⟨rfl, h⟩

/-- Otherwise the gap before the first occurrence is followed by the gaps of what stands behind. -/
theorem isGaps_iff_of_cut (hp : pattern ≠ []) (hcut : cut pattern text = some (before, after)) :
    IsGaps pattern text gaps ↔ ∃ gaps', gaps = before :: gaps' ∧ IsGaps pattern after gaps' := by
  constructor
  · intro hgaps
    match gaps, hgaps.ne_nil with
    | [gap], _ =>
      obtain ⟨rfl, habsent⟩ := isGaps_singleton_iff.mp hgaps
      rw [cut_eq_none_iff.mpr habsent] at hcut
      cases hcut
    | gap :: gap' :: gaps', _ =>
      obtain ⟨rest, hcut', hrest⟩ := (isGaps_cons_iff hp (List.cons_ne_nil _ _)).mp hgaps
      cases hcut.symm.trans hcut'
      exact ⟨_, rfl, hrest⟩
  · rintro ⟨gaps', rfl, h⟩
    exact (isGaps_cons_iff hp h.ne_nil).mpr ⟨after, hcut, h⟩

/-- A text falls into gaps in exactly one way.  So gaps can be spoken of without the search that
finds them. -/
theorem existsUnique_isGaps (hp : pattern ≠ []) (text : Text) :
    ∃! gaps, IsGaps pattern text gaps := by
  induction text using scan_induction hp with
  | absent text h =>
    exact ⟨[text], (isGaps_iff_of_absent h).mpr rfl, fun _ => (isGaps_iff_of_absent h).mp⟩
  | found text before after hcut ih =>
    obtain ⟨gaps, hgaps, hunique⟩ := ih
    refine ⟨before :: gaps, (isGaps_iff_of_cut hp hcut).mpr ⟨gaps, rfl, hgaps⟩, ?_⟩
    intro other hother
    obtain ⟨gaps', rfl, hgaps'⟩ := (isGaps_iff_of_cut hp hcut).mp hother
    rw [hunique gaps' hgaps']

namespace IsGaps

theorem pattern_ne_nil (h : IsGaps pattern text gaps) : pattern ≠ [] := by
  rintro rfl
  exact h.last _ (List.getLast?_eq_some_getLast h.ne_nil) List.nil_infix

/-- A replacement joins the same gaps by its substitute. -/
theorem replaceAll_eq (h : IsGaps pattern text gaps) (substitute : Text) :
    replaceAll pattern substitute text = List.intercalate substitute gaps := by
  have hp := h.pattern_ne_nil
  induction text using scan_induction hp generalizing gaps with
  | absent text habsent =>
    obtain rfl := (isGaps_iff_of_absent habsent).mp h
    rw [replaceAll_of_absent habsent, List.intercalate_singleton]
  | found text before after hcut ih =>
    obtain ⟨gaps, rfl, hgaps⟩ := (isGaps_iff_of_cut hp hcut).mp h
    rw [replaceAll_of_cut hp hcut, ih hgaps, List.intercalate_cons_of_ne_nil hgaps.ne_nil]

/-- A scan counts one match less than there are gaps. -/
theorem occurrences_eq (h : IsGaps pattern text gaps) :
    occurrences pattern text = gaps.length - 1 := by
  have hp := h.pattern_ne_nil
  induction text using scan_induction hp generalizing gaps with
  | absent text habsent =>
    obtain rfl := (isGaps_iff_of_absent habsent).mp h
    exact occurrences_of_absent habsent
  | found text before after hcut ih =>
    obtain ⟨gaps, rfl, hgaps⟩ := (isGaps_iff_of_cut hp hcut).mp h
    have hpos := List.length_pos_iff.mpr hgaps.ne_nil
    rw [occurrences_of_cut hp hcut, ih hgaps, List.length_cons]
    omega

end IsGaps

end CommandTemplates.Text
