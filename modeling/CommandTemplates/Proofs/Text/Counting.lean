import CommandTemplates.Proofs.Text.Occurrence
import CommandTemplates.Rules.Basic
import Mathlib.Order.Bounds.Defs

/-!
# Counting occurrences

A scan from left to right finds as many occurrences of a pattern as there can be without two that
overlap.

* `Repeats` — a text has a number of occurrences of a pattern that do not overlap.
* `isGreatest_occurrences` — a scan counts the greatest number of them.
* `pairwise_firstOccurrences` — a list without its repetitions is in the order of the list.
-/

namespace CommandTemplates

namespace Text

variable {pattern text before after : Text} {n : Nat}

/-- A text has a number of occurrences of a pattern that do not overlap: it is what stands before,
between and behind them, joined by the pattern. -/
def Repeats (pattern : Text) (n : Nat) (text : Text) : Prop :=
  ∃ gaps : List Text, gaps.length = n + 1 ∧ List.intercalate pattern gaps = text

/-- Every text has room for no occurrence. -/
theorem repeats_zero : Repeats pattern 0 text := ⟨[text], rfl, List.intercalate_singleton⟩

/-- One more occurrence fits when there is one with room for the others behind it. -/
theorem repeats_succ_iff : Repeats pattern (n + 1) text ↔
    ∃ gap rest, text = gap ++ pattern ++ rest ∧ Repeats pattern n rest := by
  constructor
  · rintro ⟨gaps, hlength, rfl⟩
    obtain ⟨gap, gap', gaps, rfl⟩ : ∃ gap gap' gaps', gaps = gap :: gap' :: gaps' := by
      match gaps, hlength with
      | gap :: gap' :: gaps', _ => exact ⟨gap, gap', gaps', rfl⟩
    exact ⟨gap, _, List.intercalate_cons_cons, gap' :: gaps, Nat.succ.inj hlength, rfl⟩
  · rintro ⟨gap, _, rfl, gaps, hlength, rfl⟩
    obtain ⟨gap', gaps, rfl⟩ := List.exists_cons_of_length_eq_add_one hlength
    exact ⟨gap :: gap' :: gaps, congrArg (· + 1) hlength, List.intercalate_cons_cons⟩

/-- Text in front of it takes no occurrence away. -/
theorem Repeats.append_left (front : Text) (h : Repeats pattern n text) :
    Repeats pattern n (front ++ text) := by
  cases n with
  | zero => exact repeats_zero
  | succ n =>
    obtain ⟨gap, rest, rfl, hrest⟩ := repeats_succ_iff.mp h
    exact repeats_succ_iff.mpr ⟨front ++ gap, rest, by simp only [List.append_assoc], hrest⟩

/-- No occurrence ends before the first one that is found. -/
theorem exists_after_of_cut (hp : pattern ≠ []) (hcut : cut pattern text = some (before, after))
    {gap rest : Text} (h : text = gap ++ pattern ++ rest) : ∃ front, after = front ++ rest := by
  obtain ⟨heq, hfirst⟩ := (cut_eq_some_iff hp).mp hcut
  have hsame : before ++ pattern ++ after = gap ++ pattern ++ rest := heq.symm.trans h
  have hlength := congrArg List.length hsame
  simp only [List.length_append] at hlength
  -- otherwise the other one would be in what stands before the end of the first
  have hle : before.length ≤ gap.length := by
    by_contra hlt
    refine hfirst ((List.suffix_append gap pattern).isInfix.trans ?_)
    have hother : gap ++ pattern <+: text := h ▸ List.prefix_append _ rest
    have hfront : before ++ pattern.dropLast <+: text := by
      refine List.IsPrefix.trans ?_ (heq ▸ List.prefix_append (before ++ pattern) after)
      exact (List.prefix_append_right_inj before).mpr (List.dropLast_prefix pattern)
    refine (List.prefix_of_prefix_length_le hother hfront ?_).isInfix
    have hpos := List.length_pos_iff.mpr hp
    simp only [List.length_append, List.length_dropLast]
    omega
  have hrest : rest <:+ text := h ▸ List.suffix_append _ rest
  have hafter : after <:+ text := heq ▸ List.suffix_append _ after
  obtain ⟨front, hfront⟩ := List.suffix_of_suffix_length_le hrest hafter (by omega)
  exact ⟨front, hfront.symm⟩

/-- A scan counts the greatest number of occurrences that do not overlap.  It takes the first one
each time, and no choice leaves more text behind its first occurrence than that. -/
theorem isGreatest_occurrences (hp : pattern ≠ []) (text : Text) :
    IsGreatest {n | Repeats pattern n text} (occurrences pattern text) := by
  induction text using scan_induction hp with
  | absent text h =>
    rw [occurrences_of_absent h]
    refine ⟨repeats_zero, fun n hn => ?_⟩
    cases n with
    | zero => exact Nat.le_refl 0
    | succ n =>
      obtain ⟨gap, rest, rfl, -⟩ := repeats_succ_iff.mp hn
      exact absurd ((List.suffix_append gap pattern).isInfix.trans
        (List.prefix_append _ rest).isInfix) h
  | found text before after hcut ih =>
    rw [occurrences_of_cut hp hcut]
    refine ⟨repeats_succ_iff.mpr ⟨before, after, eq_of_cut hcut, ih.1⟩, fun n hn => ?_⟩
    cases n with
    | zero => exact Nat.zero_le _
    | succ n =>
      obtain ⟨gap, rest, htext, hrest⟩ := repeats_succ_iff.mp hn
      obtain ⟨front, rfl⟩ := exists_after_of_cut hp hcut htext
      exact Nat.succ_le_succ (ih.2 (hrest.append_left front))

end Text

/-! ### Lists without their repetitions -/

namespace RuleSet

variable {text : Text} {texts : List Text}

/-- Leaving repetitions out loses no text. -/
theorem mem_firstOccurrences : text ∈ firstOccurrences texts ↔ text ∈ texts := by
  induction texts with
  | nil => rfl
  | cons first texts ih =>
    rw [firstOccurrences, List.mem_cons, List.mem_filter, ih, bne_iff_ne, List.mem_cons]
    constructor
    · exact Or.imp_right And.left
    · intro h
      by_cases hfirst : text = first
      · exact Or.inl hfirst
      · exact h.imp_right fun hmem => ⟨hmem, hfirst⟩

/-- Without its repetitions, a list is in the order in which each text comes up first. -/
theorem pairwise_firstOccurrences (texts : List Text) :
    (firstOccurrences texts).Pairwise fun a b => texts.idxOf a < texts.idxOf b := by
  induction texts with
  | nil => exact .nil
  | cons first texts ih =>
    have hne : ∀ text ∈ (firstOccurrences texts).filter (· != first), text ≠ first :=
      fun text htext => bne_iff_ne.mp (List.mem_filter.mp htext).2
    refine .cons (fun text htext => ?_) ((ih.filter _).imp_of_mem fun ha hb hlt => ?_)
    · rw [List.idxOf_cons_self, List.idxOf_cons_ne _ (hne text htext).symm]
      exact Nat.succ_pos _
    · rw [List.idxOf_cons_ne _ (hne _ ha).symm, List.idxOf_cons_ne _ (hne _ hb).symm]
      exact Nat.succ_lt_succ hlt

end RuleSet

end CommandTemplates
