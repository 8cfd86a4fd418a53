import CommandTemplates.Proofs.Document.Agreement
import CommandTemplates.Rules.Builtin

/-!
# Groups that leave nothing to do

A group *settles* documents when what it does to one never gives it, or another step, something
to do again.  `Group.Settles` collects what that takes of the texts in its replacements; it can
be decided, and holds of the built-in groups.  `Group.isNoop_generalize` is the consequence: the
template of a document needs no notice, has no literal left and lacks no guide.

## The four things that could go wrong

* **A literal comes back across a seam.**  Every replacement must keep apart from every literal
  with what it inserts.  Only what is *new* in it counts (`Replacement.novel`): one that inserts
  `\x7bPROJECT\x7d-dev-app` for `wtfb-dev-app` ends in the `p` that `pop-os:` starts with, but
  so did the text before.
* **The notice is lost.**  No literal overlaps its marker.
* **The guide is lost or a second one begins.**  No replacement brings in the heading, and no
  literal holds the newline that is put before it.
* **Frontmatter appears.**  The guide has dashes in its table, so a document that opened
  frontmatter and never closed it would get a notice the second time.  Such a document is
  excluded, and no replacement makes one.
-/

namespace CommandTemplates

open Text

/-- Frontmatter that is opened and never closed. -/
def Frontmatter.IsUnclosed (content : Text) : Prop :=
  ∃ rest, content = delimiter ++ rest ∧ ¬ delimiter <:+: rest

/-- A document is not split if it does not begin with frontmatter, or if that is never closed. -/
theorem Frontmatter.split_eq_none_iff {content : Text} :
    split content = none ↔ ¬ delimiter <+: content ∨ IsUnclosed content := by
  rw [split, after?, ← List.isPrefixOf_iff_prefix]
  split
  · next hopens =>
    obtain ⟨rest, rfl⟩ := List.isPrefixOf_iff_prefix.mp hopens
    rw [List.drop_left, Option.bind_some, cut_eq_none_iff]
    refine ⟨fun h => Or.inr ⟨rest, rfl, h⟩, ?_⟩
    rintro (h | ⟨rest', heq, h⟩)
    · exact absurd hopens h
    · rwa [List.append_cancel_left heq]
  · next hopens =>
    exact ⟨fun _ => Or.inl hopens, fun _ => rfl⟩

/-! ### Documents that need no notice -/

namespace Notice

variable {notice content text : Text}

/-- A document needs no notice when it carries the marker or has no frontmatter at its start. -/
def NotNeeded (text : Text) : Prop := marker <:+: text ∨ ¬ Frontmatter.delimiter <+: text

/-- No notice is inserted where none is needed. -/
theorem NotNeeded.insert?_eq_none (h : NotNeeded text) : insert? text notice = none := by
  unfold insert?
  rcases h with h | h
  · rw [isPresent, includes_iff.mpr h, if_pos rfl]
  · rw [Frontmatter.split_eq_none_iff.mpr (Or.inl h), Option.map_none, ite_self]

/-- After the notice step none is needed, unless frontmatter was left open in a document without
the marker. -/
theorem notNeeded_insert? (hnotice : marker <:+: notice.dropTrailing '\n')
    (hcontent : ¬ (Frontmatter.IsUnclosed content ∧ ¬ marker <:+: content)) :
    NotNeeded ((insert? content notice).getD content) := by
  unfold insert?
  by_cases hmarker : marker <:+: content
  · rw [isPresent, includes_iff.mpr hmarker, if_pos rfl, Option.getD_none]
    exact Or.inl hmarker
  · rw [isPresent, includes_eq_false_iff.mpr hmarker, if_neg Bool.false_ne_true]
    cases hsplit : Frontmatter.split content with
    | none =>
      rcases Frontmatter.split_eq_none_iff.mp hsplit with hopens | hunclosed
      · exact Or.inr hopens
      · exact absurd ⟨hunclosed, hmarker⟩ hcontent
    | some parts =>
      refine Or.inl (hnotice.trans ?_)
      rw [Option.map_some, Option.getD_some]
      simp only [List.append_assoc]
      iterate 4 refine List.infix_append_of_infix_right ?_
      exact (List.prefix_append _ _).isInfix

end Notice

/-! ### What a replacement brings in -/

namespace Replacement

variable {r : Replacement} {literal : Text}

/-- What a replacement inserts and did not remove: its substitute without the end that it
shares with its literal. -/
def novel (r : Replacement) : Text := (withoutSharedEnd r.literal r.substitute).2

/-- A rule spares a literal that does not overlap with what it puts in. -/
theorem spares_of_noOverlap (hne : r.literal ≠ [])
    (h : NoOverlap r.substitute literal ∨ NoOverlap r.novel literal) : r.Spares literal := by
  intro text htext
  rw [← List.append_nil text] at htext
  rw [← List.append_nil (r.apply text)]
  rcases h with h | h
  · exact not_infix_replaceAll_append hne h.apart htext
  · -- the end that both share was in the text before
    obtain ⟨tail, hliteral, hsubstitute⟩ := exists_sharedEnd r.literal r.substitute
    have happly : r.apply text =
        replaceAll ((withoutSharedEnd r.literal r.substitute).1 ++ tail) (r.novel ++ tail) text := by
      rw [apply, novel, ← hliteral, ← hsubstitute]
    rw [hliteral] at hne
    rw [happly]
    exact not_infix_append_replaceAll hne h.apart [] [] htext

theorem removes_of_noOverlap (h : NoOverlap r.substitute r.literal) : r.Removes :=
  fun _ => not_infix_replaceAll_self h.pattern_ne_nil h.apart

end Replacement

namespace Group

/-- The conditions on the texts of a group under which its templates stay as they are. -/
structure Settles (group : Group) : Prop where
  removes : ∀ r ∈ group.replacements, NoOverlap r.substitute r.literal
  spares : ∀ r ∈ group.replacements, ∀ text ∈ Guide.heading :: group.literals,
    NoOverlap r.substitute text ∨ NoOverlap r.novel text
  keepsMarker : ∀ r ∈ group.replacements, NoOverlap r.literal Notice.marker
  /-- No literal holds the newline that goes before the guide. -/
  oneLine : ∀ literal ∈ group.literals, '\n' ∉ literal
  /-- No substitute can open frontmatter. -/
  opensNothing : ∀ r ∈ group.replacements, r.substitute.head?.any (· ∉ Frontmatter.delimiter) = true

instance decidableSettles (group : Group) : Decidable group.Settles :=
  decidable_of_iff
    ((∀ r ∈ group.replacements, NoOverlap r.substitute r.literal) ∧
      (∀ r ∈ group.replacements, ∀ text ∈ Guide.heading :: group.literals,
        NoOverlap r.substitute text ∨ NoOverlap r.novel text) ∧
      (∀ r ∈ group.replacements, NoOverlap r.literal Notice.marker) ∧
      (∀ literal ∈ group.literals, '\n' ∉ literal) ∧
      ∀ r ∈ group.replacements, r.substitute.head?.any (· ∉ Frontmatter.delimiter) = true)
    ⟨fun ⟨h₁, h₂, h₃, h₄, h₅⟩ => ⟨h₁, h₂, h₃, h₄, h₅⟩,
      fun h => ⟨h.removes, h.spares, h.keepsMarker, h.oneLine, h.opensNothing⟩⟩

/-- The built-in groups leave nothing to do. -/
theorem builtin_settles : ∀ group ∈ RuleSet.builtin.groups, group.Settles := by
  decide +kernel

variable {group : Group} {text : Text} {r : Replacement}

/-! ### Replacement in a settling group -/

theorem Settles.literal_ne_nil (hgroup : group.Settles) (hr : r ∈ group.replacements) :
    r.literal ≠ [] := (hgroup.removes r hr).pattern_ne_nil

/-- One pass leaves no literal behind. -/
theorem Settles.isClean (hgroup : group.Settles) (text : Text) :
    (Replacement.applyAll text group.replacements).1.IsClean group.literals := by
  refine Replacement.applyAll_isClean (fun r hr => r.removes_of_noOverlap (hgroup.removes r hr)) ?_
  -- each one spares all literals, not only those before it
  refine List.pairwise_of_forall_mem_list fun earlier hearlier later hlater => ?_
  refine later.spares_of_noOverlap (hgroup.literal_ne_nil hlater) ?_
  exact hgroup.spares later hlater _ (List.mem_cons_of_mem _ (List.mem_map_of_mem hearlier))

/-- No replacement makes a heading. -/
theorem Settles.not_heading (hgroup : group.Settles) (htext : ¬ Guide.heading <:+: text) :
    ¬ Guide.heading <:+: (Replacement.applyAll text group.replacements).1 := by
  refine Replacement.applyAll_induction (motive := fun text => ¬ Guide.heading <:+: text) ?_ htext
  intro r hr text htext
  exact r.spares_of_noOverlap (hgroup.literal_ne_nil hr)
    (hgroup.spares r hr _ List.mem_cons_self) text htext

/-- Replacements keep a marker that is there, and make no text open frontmatter. -/
theorem Settles.notNeeded (hgroup : group.Settles) {guide : Text}
    (h : Notice.NotNeeded (text ++ guide)) :
    Notice.NotNeeded ((Replacement.applyAll text group.replacements).1 ++ guide) := by
  refine Replacement.applyAll_induction (motive := fun text => Notice.NotNeeded (text ++ guide)) ?_ h
  intro r hr text h
  have hne := hgroup.literal_ne_nil hr
  rcases h with h | h
  · exact Or.inl (infix_replaceAll_append hne (hgroup.keepsMarker r hr).apart h)
  · obtain ⟨c, hhead, hc⟩ := (Option.any_eq_true _ _).mp (hgroup.opensNothing r hr)
    obtain ⟨rest, hrest⟩ := List.head?_eq_some_iff.mp hhead
    refine Or.inr ?_
    rw [Replacement.apply, hrest]
    exact not_prefix_replaceAll_append hne (of_decide_eq_true hc) h

end Group

end CommandTemplates
