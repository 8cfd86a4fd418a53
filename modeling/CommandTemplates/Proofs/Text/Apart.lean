import CommandTemplates.Proofs.Text.Occurrence

/-!
# Texts that keep apart from a pattern

When a text is put in the place of another, a pattern can come to stand across the seams
although neither the old text nor the new one holds it.  `Apart part pattern` says that
this cannot happen to `part`: wherever `part` is put, an occurrence of the pattern lies
wholly before it or wholly after it.

* `NoOverlap` is the condition on the two texts alone, which can be decided; it is
  sufficient (`NoOverlap.apart`).
* `not_infix_append_replaceAll`, `not_infix_replaceAll_self` — a replacement brings in no
  pattern that what it inserts keeps apart from.
* `infix_replaceAll_append` — a replacement takes away no text that its own pattern keeps
  apart from.

What a replacement inserts is compared with what it removes: only what is left when the end
that both share is taken off (`withoutSharedEnd`) is new.  A pattern that begins in the shared
end began there before, too.
-/

namespace CommandTemplates

namespace Text

variable {part pattern text substitute : Text}

/-- No occurrence of the pattern touches `part`, wherever it is put.  So a search in a text with
such a part can be made in front of it and behind it. -/
def Apart (part pattern : Text) : Prop :=
  ∀ before after, pattern <:+: before ++ part ++ after → pattern <:+: before ∨ pattern <:+: after

/-- Neither text stands in the other, and no edge of the pattern fits an edge of `part`. -/
structure NoOverlap (part pattern : Text) : Prop where
  not_infix_part : ¬ pattern <:+: part
  not_infix_pattern : ¬ part <:+: pattern
  /-- The pattern does not end in a beginning of `part`. -/
  not_prefix : ∀ edge, edge ≠ [] → edge <:+ pattern → ¬ edge <+: part
  /-- The pattern does not begin with an end of `part`. -/
  not_suffix : ∀ edge, edge ≠ [] → edge <+: pattern → ¬ edge <:+ part

theorem NoOverlap.part_ne_nil (h : NoOverlap part pattern) : part ≠ [] :=
  fun hnil => h.not_infix_pattern (hnil ▸ List.nil_infix)

theorem NoOverlap.pattern_ne_nil (h : NoOverlap part pattern) : pattern ≠ [] :=
  fun hnil => h.not_infix_part (hnil ▸ List.nil_infix)

/-- Of the edges of the pattern only the proper ones count: the whole of it is excluded anyway. -/
theorem noOverlap_iff_proper :
    NoOverlap part pattern ↔ ¬ pattern <:+: part ∧ ¬ part <:+: pattern ∧
      (∀ edge, edge ≠ [] → edge ≠ pattern → edge <:+ pattern → ¬ edge <+: part) ∧
      ∀ edge, edge ≠ [] → edge ≠ pattern → edge <+: pattern → ¬ edge <:+ part := by
  constructor
  · intro h
    exact ⟨h.not_infix_part, h.not_infix_pattern, fun edge hne _ => h.not_prefix edge hne,
      fun edge hne _ => h.not_suffix edge hne⟩
  · rintro ⟨hpart, hpattern, hprefix, hsuffix⟩
    refine ⟨hpart, hpattern, fun edge hne hsuf hpre => ?_, fun edge hne hpre hsuf => ?_⟩
    · exact hprefix edge hne (fun heq => hpart (heq ▸ hpre.isInfix)) hsuf hpre
    · exact hsuffix edge hne (fun heq => hpart (heq ▸ hsuf.isInfix)) hpre hsuf

/-- Whether two texts agree as far as both go. -/
def agrees : Text → Text → Bool
  | a :: s, b :: t => if a = b then agrees s t else false
  | _, _ => true

/-- Texts agree when one of them begins with the other. -/
theorem agrees_iff {s t : Text} : agrees s t = true ↔ s <+: t ∨ t <+: s := by
  fun_induction agrees s t with
  | case1 s a t ih => rw [ih, List.cons_prefix_cons, List.cons_prefix_cons]; simp
  | case2 a s b t hne =>
    rw [List.cons_prefix_cons, List.cons_prefix_cons]
    simp [hne, Ne.symm hne]
  | case3 s t hnil =>
    cases s with
    | nil => simp
    | cons a s =>
      cases t with
      | nil => simp
      | cons b t => exact (hnil a s b t rfl rfl).elim

/-- Two texts do not overlap when they disagree wherever one is laid over the other. -/
theorem noOverlap_iff :
    NoOverlap part pattern ↔ part ≠ [] ∧
      (∀ rest ∈ part.tails, rest ≠ [] → agrees rest pattern = false) ∧
      ∀ rest ∈ pattern.tails, rest ≠ [] → agrees rest part = false := by
  simp only [List.mem_tails, ← Bool.not_eq_true, agrees_iff]
  constructor
  · intro h
    refine ⟨?_, ?_, ?_⟩
    · rintro rfl
      exact h.not_infix_pattern List.nil_infix
    · rintro rest hrest hne (hpre | hpre)
      · exact h.not_suffix rest hne hpre hrest
      · exact h.not_infix_part (hpre.isInfix.trans hrest.isInfix)
    · rintro rest hrest hne (hpre | hpre)
      · exact h.not_prefix rest hne hrest hpre
      · exact h.not_infix_pattern (hpre.isInfix.trans hrest.isInfix)
  · rintro ⟨hpart, hover, hunder⟩
    refine ⟨?_, ?_, fun edge hne hsuf hpre => hunder edge hsuf hne (Or.inl hpre),
      fun edge hne hpre hsuf => hover edge hsuf hne (Or.inl hpre)⟩
    · rw [List.infix_iff_prefix_suffix]
      rintro ⟨rest, hpre, hsuf⟩
      by_cases hne : rest = []
      · -- the pattern is empty, and agrees with the whole of `part`
        rw [hne, List.prefix_nil] at hpre
        exact hover part List.suffix_rfl hpart (Or.inr (hpre ▸ List.nil_prefix))
      · exact hover rest hsuf hne (Or.inr hpre)
    · rw [List.infix_iff_prefix_suffix]
      rintro ⟨rest, hpre, hsuf⟩
      refine hunder rest hsuf ?_ (Or.inr hpre)
      rintro rfl
      exact hpart (List.prefix_nil.mp hpre)

instance decidableNoOverlap (part pattern : Text) : Decidable (NoOverlap part pattern) :=
  decidable_of_iff _ noOverlap_iff.symm

/-- Texts that have no character in common do not overlap. -/
theorem noOverlap_of_disjoint (hpart : part ≠ []) (hpattern : pattern ≠ [])
    (h : ∀ c ∈ part, c ∉ pattern) : NoOverlap part pattern := by
  have hedge : ∀ edge : Text, edge ≠ [] → edge ⊆ part → ¬ edge ⊆ pattern := by
    intro edge hne hin hin'
    obtain ⟨c, hc⟩ := List.exists_mem_of_ne_nil edge hne
    exact h c (hin hc) (hin' hc)
  constructor
  · exact fun hin => hedge pattern hpattern hin.subset (List.Subset.refl _)
  · exact fun hin => hedge part hpart (List.Subset.refl _) hin.subset
  · exact fun edge hne hsuf hpre => hedge edge hne hpre.subset hsuf.subset
  · exact fun edge hne hpre hsuf => hedge edge hne hsuf.subset hpre.subset

/-- An occurrence is cut by the two seams into pieces, each of which is an edge. -/
theorem NoOverlap.apart (h : NoOverlap part pattern) : Apart part pattern := by
  intro before after hin
  rcases List.infix_append_iff.mp hin with hin | hin | ⟨left, right, rfl, hleft, hright⟩
  · rcases List.infix_append_iff.mp hin with hin | hin | ⟨left, right, rfl, hleft, hright⟩
    · exact Or.inl hin
    · exact absurd hin h.not_infix_part
    · -- the occurrence ends in `part`
      by_cases hr : right = []
      · rw [hr, List.append_nil]
        exact Or.inl hleft.isInfix
      · exact absurd hright (h.not_prefix right hr (List.suffix_append left right))
  · exact Or.inr hin
  · -- the occurrence ends after `part`
    rcases List.suffix_or_suffix_of_suffix hleft (List.suffix_append before part) with hs | hs
    · by_cases hl : left = []
      · rw [hl, List.nil_append]
        exact Or.inr hright.isInfix
      · exact absurd hs (h.not_suffix left hl (List.prefix_append left right))
    · exact absurd (hs.isInfix.trans (List.prefix_append left right).isInfix) h.not_infix_pattern

/-! ### Absence is kept -/

/-- A replacement brings in no pattern.  What it inserts may end as what it removes does: the
induction carries the end of the last match along as the text in front of the rest. -/
theorem not_infix_append_replaceAll {old new tail : Text} (hne : old ++ tail ≠ [])
    (h : Apart new pattern) (front back : Text) (htext : ¬ pattern <:+: front ++ (text ++ back)) :
    ¬ pattern <:+: front ++ (replaceAll (old ++ tail) (new ++ tail) text ++ back) := by
  induction text using scan_induction hne generalizing front with
  | absent text habsent => rwa [replaceAll_of_absent habsent]
  | found text before after hcut ih =>
    have heq := eq_of_cut hcut
    rw [replaceAll_of_cut hne hcut]
    intro hin
    have hsplit : pattern <:+: (front ++ before) ++ new ++
        (tail ++ (replaceAll (old ++ tail) (new ++ tail) after ++ back)) := by
      simpa only [List.append_assoc] using hin
    rcases h _ _ hsplit with hin | hin
    · -- before the match nothing changed
      refine htext (hin.trans ?_)
      rw [heq, List.append_assoc, List.append_assoc, ← List.append_assoc front]
      exact (List.prefix_append _ _).isInfix
    · -- the end of the match was there before, so it can stand in front of the rest
      refine ih tail ?_ hin
      intro hin
      refine htext (hin.trans ?_)
      rw [heq]
      exact ⟨front ++ before ++ old, [], by simp only [List.append_assoc, List.append_nil]⟩

/-- When the two texts of a replacement share no end, that is so of all that it inserts. -/
theorem not_infix_replaceAll_append {old new back : Text} (hne : old ≠ []) (h : Apart new pattern)
    (htext : ¬ pattern <:+: text ++ back) : ¬ pattern <:+: replaceAll old new text ++ back := by
  rw [← List.append_nil old] at hne
  have hkept := not_infix_append_replaceAll hne h [] back htext
  rwa [List.append_nil, List.append_nil] at hkept

/-- After a replacement its own pattern is gone. -/
theorem not_infix_replaceAll_self (hp : pattern ≠ []) (h : Apart substitute pattern) :
    ¬ pattern <:+: replaceAll pattern substitute text := by
  induction text using scan_induction hp with
  | absent text habsent => rwa [replaceAll_of_absent habsent]
  | found text before after hcut ih =>
    rw [replaceAll_of_cut hp hcut]
    intro hin
    rcases h _ _ hin with hin | hin
    · exact not_infix_before hp hcut hin
    · exact ih hin

/-! ### Presence is kept -/

/-- A replacement takes away nothing that its pattern keeps apart from. -/
theorem infix_replaceAll_append (hp : pattern ≠ []) (h : Apart pattern part) {back : Text}
    (hpart : part <:+: text ++ back) : part <:+: replaceAll pattern substitute text ++ back := by
  induction text using scan_induction hp with
  | absent text habsent => rwa [replaceAll_of_absent habsent]
  | found text before after hcut ih =>
    rw [eq_of_cut hcut, List.append_assoc] at hpart
    rw [replaceAll_of_cut hp hcut, List.append_assoc]
    -- the part stands before the match, or in the rest
    rcases h _ _ hpart with hin | hin
    · rw [List.append_assoc]
      exact List.infix_append_of_infix_left hin
    · exact List.infix_append_of_infix_right (ih hin)

/-! ### Beginnings are kept -/

/-- A beginning stops before a character that it does not have. -/
theorem prefix_of_prefix_append_cons {start before rest : Text} {c : Char} (hc : c ∉ start)
    (h : start <+: before ++ c :: rest) : start <+: before := by
  have hconcat : before ++ [c] <+: before ++ c :: rest := by
    exact List.prefix_append_right_inj before |>.mpr (List.prefix_append [c] rest)
  rcases List.prefix_or_prefix_of_prefix h hconcat with hs | hs
  · rcases List.prefix_concat_iff.mp hs with rfl | hs
    · simp at hc
    · exact hs
  · exact absurd (hs.subset (by simp)) hc

/-- A replacement makes no text start in a new way, when what it inserts starts with a
character that is not in this beginning. -/
theorem not_prefix_replaceAll_append (hp : pattern ≠ []) {start back : Text} {c : Char}
    (hc : c ∉ start) (h : ¬ start <+: text ++ back) :
    ¬ start <+: replaceAll pattern (c :: substitute) text ++ back := by
  by_cases hin : pattern <:+: text
  · obtain ⟨before, after, hcut⟩ := exists_cut hin
    rw [replaceAll_of_cut hp hcut]
    intro hstart
    -- the beginning stops before the first match
    rw [List.append_assoc, List.append_assoc, List.cons_append] at hstart
    apply h
    rw [eq_of_cut hcut, List.append_assoc, List.append_assoc]
    exact (prefix_of_prefix_append_cons hc hstart).trans (List.prefix_append _ _)
  · rwa [replaceAll_of_absent hin]

/-! ### The end that two texts share -/

/-- Two texts without the beginning that they share.  What a replacement leaves as it is at the
edges of a match is taken off in this way. -/
def withoutSharedStart : Text → Text → Text × Text
  | a :: s, b :: t => if a = b then withoutSharedStart s t else (a :: s, b :: t)
  | s, t => (s, t)

/-- Two texts without the end that they share. -/
def withoutSharedEnd (s t : Text) : Text × Text :=
  let parts := withoutSharedStart s.reverse t.reverse
  (parts.1.reverse, parts.2.reverse)

/-- What two texts have in common at their start can be put back. -/
theorem exists_sharedStart (s t : Text) :
    ∃ start, s = start ++ (withoutSharedStart s t).1 ∧ t = start ++ (withoutSharedStart s t).2 := by
  fun_induction withoutSharedStart s t with
  | case1 s a t ih =>
    obtain ⟨start, hs, ht⟩ := ih
    exact ⟨a :: start, congrArg (a :: ·) hs, congrArg (a :: ·) ht⟩
  | case2 => exact ⟨[], rfl, rfl⟩
  | case3 => exact ⟨[], rfl, rfl⟩

/-- What was taken off is the same end of both texts. -/
theorem exists_sharedEnd (s t : Text) :
    ∃ tail, s = (withoutSharedEnd s t).1 ++ tail ∧ t = (withoutSharedEnd s t).2 ++ tail := by
  obtain ⟨start, hs, ht⟩ := exists_sharedStart s.reverse t.reverse
  refine ⟨start.reverse, ?_, ?_⟩
  · rw [withoutSharedEnd, ← List.reverse_append, ← hs, List.reverse_reverse]
  · rw [withoutSharedEnd, ← List.reverse_append, ← ht, List.reverse_reverse]

end Text

end CommandTemplates
