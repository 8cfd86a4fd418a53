import CommandTemplates.Text.Order
import Mathlib.Data.List.Lex

/-!
# Sorted texts

The order of texts is the order of their scalars, as lists of numbers.  That is a linear order, so
texts that are sorted and not repeated come one before the other.

* `before_iff` — the order of texts is that of their scalars.
* `mem_sorted`, `nodup_sorted`, `pairwise_sorted` — what sorting makes of a list.
-/

namespace CommandTemplates.Text

variable {s t : Text} {texts : List Text}

/-- The scalars of a text. -/
def scalars (t : Text) : List Nat := t.map Char.toNat

/-- Different texts have different scalar values. -/
theorem scalars_injective : Function.Injective scalars :=
  List.map_injective_iff.mpr fun _ _ h => Char.toNat_inj.mp h

/-- The order of texts is that of their scalars. -/
theorem before_iff : before s t = true ↔ s.scalars < t.scalars := by
  rw [before]
  induction s generalizing t with
  | nil =>
    cases t with
    | nil => exact iff_of_false Bool.false_ne_true (lt_irrefl [])
    | cons d t => exact iff_of_true rfl (List.nil_lt_cons _ _)
  | cons c s ih =>
    cases t with
    | nil => exact iff_of_false Bool.false_ne_true (List.not_lt_nil _)
    | cons d t =>
      rw [comesBefore, scalars, scalars, List.map_cons, List.map_cons, List.cons_lt_cons_iff,
        Bool.or_eq_true, Bool.and_eq_true, ih, decide_eq_true_eq, Bool.not_eq_true',
        decide_eq_false_iff_not]
      -- beyond the first scalar counts only where the first ones are the same
      constructor
      · rintro (hlt | ⟨hle, hlt⟩)
        · exact Or.inl hlt
        · rcases Nat.lt_or_eq_of_le (Nat.not_lt.mp hle) with hlt' | heq
          · exact Or.inl hlt'
          · exact Or.inr ⟨heq, hlt⟩
      · rintro (hlt | ⟨heq, hlt⟩)
        · exact Or.inl hlt
        · exact Or.inr ⟨Nat.not_lt.mpr heq.le, hlt⟩

/-- The order of texts is that of their scalar values. -/
theorem not_before_iff : (!before t s) = true ↔ s.scalars ≤ t.scalars := by
  rw [Bool.not_eq_true', ← Bool.not_eq_true, before_iff, not_lt]

theorem mem_sorted : t ∈ sorted texts ↔ t ∈ texts := List.mem_mergeSort

theorem nodup_sorted (h : texts.Nodup) : (sorted texts).Nodup :=
  (List.mergeSort_perm texts _).nodup_iff.mpr h

/-- Texts that are sorted and not repeated come one before the other. -/
theorem pairwise_sorted (h : texts.Nodup) :
    (sorted texts).Pairwise fun s t => before s t = true := by
  have hsorted : (sorted texts).Pairwise fun s t => (!before t s) = true := by
    refine List.pairwise_mergeSort (fun r s t => ?_) (fun s t => ?_) texts
    · rw [not_before_iff, not_before_iff, not_before_iff]
      exact le_trans
    · rw [Bool.or_eq_true, not_before_iff, not_before_iff]
      exact le_total _ _
  refine (hsorted.and (nodup_sorted h)).imp fun ⟨hle, hne⟩ => ?_
  exact before_iff.mpr (lt_of_le_of_ne (not_before_iff.mp hle) (scalars_injective.ne hne))

end CommandTemplates.Text
