import CommandTemplates.Proofs.Document.Settled
import CommandTemplates.Proofs.Text.Commuting

/-!
# Replacements that do not interact

Replacements are applied one after the other, and each sees what the others made of the text.  They
can come into each other's way at the seams: what one inserts can meet the text around it and look
like what another one looks for.  Where the texts of two replacements do not overlap, that does not
happen.

## Main Definitions

* `Replacement.Avoids` — neither text of a replacement overlaps what another one looks for

## Main Results

* `Replacement.applyAll_clears` — when nothing that is inserted overlaps a literal, one pass leaves
  no literal behind
* `Replacement.applyAll_perm` — when the replacements avoid each other, their order does not matter
-/

namespace CommandTemplates.Replacement

open Text

variable {text : Text} {r r' : Replacement} {rs rs' : List Replacement}

/-! ### Nothing is left behind -/

/-- When no substitute of a list overlaps a literal of the list, one pass leaves no literal behind:
none is counted in the result, and a second pass changes nothing and reports nothing. -/
theorem applyAll_clears (text : Text) {rs : List Replacement}
    (h : ∀ r ∈ rs, ∀ r' ∈ rs, NoOverlap r.substitute r'.literal) :
    let result := (applyAll text rs).1
    result.IsClean (rs.map (·.literal)) ∧ result.countLiterals (rs.map (·.literal)) = [] ∧
      applyAll result rs = (result, []) := by
  intro result
  have hclean : result.IsClean (rs.map (·.literal)) := by
    refine applyAll_isClean (fun r hr => removes_of_noOverlap (h r hr r hr)) ?_
    refine List.pairwise_of_forall_mem_list fun earlier hearlier later hlater => ?_
    refine spares_of_noOverlap (h later hlater later hlater).pattern_ne_nil (Or.inl ?_)
    exact h later hlater earlier hearlier
  exact ⟨hclean, countLiterals_eq_nil_iff.mpr hclean, applyAll_of_clean hclean⟩

/-- Literals that overlap themselves, and substitutes that have characters of literals inside. -/
theorem applyAll_clears_inside :
    let rs : List Replacement := [⟨"aba".toList, "xbx".toList⟩, ⟨"bb".toList, "cac".toList⟩]
    let result := (applyAll "ababbba".toList rs).1
    (∀ r ∈ rs, ∀ r' ∈ rs, NoOverlap r.substitute r'.literal) ∧ result = "xbxcacba".toList ∧
      result.IsClean (rs.map (·.literal)) ∧ result.countLiterals (rs.map (·.literal)) = [] ∧
      applyAll result rs = (result, []) := by
  intro rs result
  have hrs : ∀ r ∈ rs, ∀ r' ∈ rs, NoOverlap r.substitute r'.literal := by decide
  exact ⟨hrs, by decide +kernel, applyAll_clears _ hrs⟩

/-! ### The order of two replacements -/

/-- A replacement that neither takes away nor puts in what overlaps the literal of another. -/
structure Avoids (r r' : Replacement) : Prop where
  literal : NoOverlap r.literal r'.literal
  substitute : NoOverlap r.substitute r'.literal

instance decidableAvoids (r r' : Replacement) : Decidable (r.Avoids r') :=
  decidable_of_iff (NoOverlap r.literal r'.literal ∧ NoOverlap r.substitute r'.literal)
    ⟨fun ⟨hliteral, hsubstitute⟩ => ⟨hliteral, hsubstitute⟩, fun h => ⟨h.literal, h.substitute⟩⟩

/-- A rule that is avoided counts as often after the other as before. -/
theorem Avoids.counted_apply (h : r.Avoids r') (text : Text) :
    r'.counted (r.apply text) = r'.counted text := by
  rw [counted, counted, apply, occurrences_replaceAll_of_apart h.literal.part_ne_nil
    h.literal.pattern_ne_nil h.literal.apart h.substitute.apart]

/-- Rules that avoid each other can be applied in either order. -/
theorem Avoids.apply_comm (h : r.Avoids r') (h' : r'.Avoids r) (text : Text) :
    r'.apply (r.apply text) = r.apply (r'.apply text) :=
  replaceAll_comm h.literal.part_ne_nil h.literal.pattern_ne_nil h.literal.apart h.substitute.apart
    h'.substitute.apart text

/-- Two replacements that avoid each other can change places in front of a list. -/
theorem applyAll_swap (h : r.Avoids r') (h' : r'.Avoids r) (text : Text)
    (rs : List Replacement) :
    (applyAll text (r :: r' :: rs)).1 = (applyAll text (r' :: r :: rs)).1 ∧
      (applyAll text (r :: r' :: rs)).2.Perm (applyAll text (r' :: r :: rs)).2 := by
  simp only [applyAll_cons, h.apply_comm h' text, h.counted_apply, h'.counted_apply]
  exact ⟨trivial, List.perm_append_comm_assoc _ _ _⟩

/-! ### The order of all -/

/-- When different replacements of a list avoid each other, in any order they make the same text and
report the same counts. -/
theorem applyAll_perm (text : Text) {rs rs' : List Replacement}
    (h : ∀ r ∈ rs, ∀ r' ∈ rs, r ≠ r' → r.Avoids r') (hperm : rs.Perm rs') :
    (applyAll text rs).1 = (applyAll text rs').1 ∧
      (applyAll text rs).2.Perm (applyAll text rs').2 := by
  induction hperm generalizing text with
  | nil => exact ⟨rfl, .refl _⟩
  | cons r hperm ih =>
    rw [applyAll_cons, applyAll_cons]
    obtain ⟨htext, hcounts⟩ := ih (r.apply text) fun r hr r' hr' =>
      h r (List.mem_cons_of_mem _ hr) r' (List.mem_cons_of_mem _ hr')
    exact ⟨htext, hcounts.append_left _⟩
  | swap r r' rs =>
    by_cases heq : r' = r
    · rw [heq]
      exact ⟨rfl, .refl _⟩
    · have hr : r ∈ r' :: r :: rs := by simp
      have hr' : r' ∈ r' :: r :: rs := by simp
      exact applyAll_swap (h r' hr' r hr heq) (h r hr r' hr' (Ne.symm heq)) text rs
  | trans hperm₁ hperm₂ ih₁ ih₂ =>
    obtain ⟨htext₁, hcounts₁⟩ := ih₁ text h
    obtain ⟨htext₂, hcounts₂⟩ := ih₂ text fun r hr r' hr' =>
      h r (hperm₁.mem_iff.mpr hr) r' (hperm₁.mem_iff.mpr hr')
    exact ⟨htext₁.trans htext₂, hcounts₁.trans hcounts₂⟩

/-- Literals that overlap themselves, in two orders, of which each counts the leftmost matches. -/
theorem applyAll_perm_selfOverlapping :
    let text := "aaabcbcb".toList
    let rs : List Replacement :=
      [⟨"aa".toList, "x".toList⟩, ⟨"bcb".toList, "yay".toList⟩, ⟨"zz".toList, "w".toList⟩]
    (∀ r ∈ rs, ∀ r' ∈ rs, r ≠ r' → r.Avoids r') ∧ rs.Perm rs.reverse ∧
      (applyAll text rs).1 = (applyAll text rs.reverse).1 ∧
      (applyAll text rs).2.Perm (applyAll text rs.reverse).2 := by
  intro text rs
  have hrs : ∀ r ∈ rs, ∀ r' ∈ rs, r ≠ r' → r.Avoids r' := by decide
  have hperm : rs.Perm rs.reverse := (List.reverse_perm rs).symm
  exact ⟨hrs, hperm, applyAll_perm text hrs hperm⟩

end CommandTemplates.Replacement
