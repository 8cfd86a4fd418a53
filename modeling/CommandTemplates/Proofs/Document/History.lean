import CommandTemplates.Proofs.Document.GuideKept

/-!
# Documents that are made templates again and again

A history makes a document a template several times, each time from the text of the time before,
for a group and with a notice that may be different every time.  A step does some things only
once: what makes it do them is gone after it, and no later step brings it back.

## Main Definitions

* `Template.history` — the templates that a document becomes one after the other

## Main Results

* `Template.history_forall`, `Template.history_pairwise` — what every step keeps, all later
  templates have
* `Template.countP_history_le_one` — what is done only where something is missing, and brings that
  in for good, is done at most once
* `guideAdded_at_most_once` — so it is with the guide, whatever the groups and the notices are
-/

namespace CommandTemplates

open Text

namespace Template

/-- Makes a document a template again and again, each time for a group and with a notice of that
time. -/
def history : List (Group × Text) → Text → List Template
  | [], _ => []
  | (group, notice) :: steps, content =>
    let t := group.generalize notice content
    t :: history steps t.content

/-- Repeating one step is a history. -/
theorem generalizeTimes_eq_history (group : Group) (notice content : Text) (n : Nat) :
    group.generalizeTimes notice n content =
      history (List.replicate n (group, notice)) content := by
  induction n generalizing content with
  | zero => rfl
  | succ n ih =>
    rw [Group.generalizeTimes, List.replicate_succ, history]
    exact congrArg _ (ih _)

theorem length_history (steps : List (Group × Text)) (content : Text) :
    (history steps content).length = steps.length := by
  induction steps generalizing content with
  | nil => rfl
  | cons step steps ih => exact congrArg (· + 1) (ih _)

section Invariant

variable {steps : List (Group × Text)} {content : Text} {P : Text → Prop} {Q : Template → Prop}

/-- What every step keeps, and what it says as long as that holds, goes for a whole history. -/
theorem history_forall
    (hstep : ∀ step ∈ steps, ∀ text, P text →
      P (step.1.generalize step.2 text).content ∧ Q (step.1.generalize step.2 text))
    (hstart : P content) : ∀ t ∈ history steps content, P t.content ∧ Q t := by
  induction steps generalizing content with
  | nil => exact nofun
  | cons step steps ih =>
    obtain ⟨hlater, hhere⟩ := List.forall_mem_cons.mp hstep |>.symm
    have hfirst := hhere content hstart
    rw [history, List.forall_mem_cons]
    exact ⟨hfirst, ih hlater hfirst.1⟩

/-- From the first template on that has what every step keeps, all have it. -/
theorem history_pairwise (content : Text)
    (hstep : ∀ step ∈ steps, ∀ text, P text →
      P (step.1.generalize step.2 text).content ∧ Q (step.1.generalize step.2 text)) :
    (history steps content).Pairwise fun t u => P t.content → P u.content ∧ Q u := by
  induction steps generalizing content with
  | nil => exact List.Pairwise.nil
  | cons step steps ih =>
    have hlater := (List.forall_mem_cons.mp hstep).2
    rw [history, List.pairwise_cons]
    exact ⟨fun u hu hfirst => history_forall hlater hfirst u hu, ih _ hlater⟩

/-- Every template of a history is made by one of its steps. -/
theorem exists_step_of_mem_history {t : Template} (h : t ∈ history steps content) :
    ∃ step ∈ steps, ∃ text, t = step.1.generalize step.2 text := by
  induction steps generalizing content with
  | nil => cases h
  | cons step steps ih =>
    rw [history, List.mem_cons] at h
    rcases h with rfl | h
    · exact ⟨step, List.mem_cons_self, content, rfl⟩
    · obtain ⟨later, hlater, text, heq⟩ := ih h
      exact ⟨later, List.mem_cons_of_mem _ hlater, text, heq⟩

end Invariant

/-- At most one template of a list is marked when none is after a marked one. -/
theorem countP_le_one {mark : Template → Bool} {runs : List Template}
    (h : runs.Pairwise fun t u => mark t = true → mark u = false) : runs.countP mark ≤ 1 := by
  induction runs with
  | nil => simp
  | cons t runs ih =>
    obtain ⟨hfirst, hrest⟩ := List.pairwise_cons.mp h
    cases hmark : mark t with
    | false =>
      rw [List.countP_cons_of_neg (by simp [hmark])]
      exact ih hrest
    | true =>
      have hnone : runs.countP mark = 0 := by
        rw [List.countP_eq_zero]
        intro u hu
        rw [hfirst u hu hmark]
        exact Bool.false_ne_true
      rw [List.countP_cons_of_pos hmark, hnone]

/-- What a step does only to texts without a property, and which gives them that property for
good, is done at most once in a history. -/
theorem countP_history_le_one {mark : Template → Bool} {P : Text → Prop}
    {steps : List (Group × Text)} (content : Text)
    (hmarked : ∀ step ∈ steps, ∀ text, mark (step.1.generalize step.2 text) = true →
      P (step.1.generalize step.2 text).content)
    (hstep : ∀ step ∈ steps, ∀ text, P text →
      P (step.1.generalize step.2 text).content ∧ mark (step.1.generalize step.2 text) = false) :
    (history steps content).countP mark ≤ 1 := by
  have hlater := history_pairwise content (Q := (mark · = false)) hstep
  refine countP_le_one (hlater.imp_of_mem ?_)
  intro t u ht _ hkept hmark
  obtain ⟨step, hmem, text, rfl⟩ := exists_step_of_mem_history ht
  exact (hkept (hmarked step hmem text hmark)).2

end Template

/-! ### The guide -/

namespace Group

variable {group : Group} {notice content : Text}

/-- A document that is given a guide has a heading then. -/
theorem infix_of_guideAdded (h : (group.generalize notice content).guideAdded = true) :
    Guide.heading <:+: (group.generalize notice content).content := by
  obtain ⟨guide, hrender, hstart⟩ := Guide.exists_render group.placeholders
  have hwanted := (generalize_guideAdded group notice content).mp h
  rw [generalize_content]
  dsimp only at hwanted ⊢
  rw [if_pos hwanted, hrender]
  exact hstart.isInfix.trans ((List.suffix_cons _ _).trans (List.suffix_append _ _)).isInfix

/-- A heading that is there stays, and no guide is added. -/
theorem infix_generalize (group : Group) (notice : Text) (h : Guide.heading <:+: content) :
    Guide.heading <:+: (group.generalize notice content).content ∧
      (group.generalize notice content).guideAdded = false := by
  obtain ⟨hcontent, hnone⟩ := group.generalize_of_present notice h
  rw [hcontent]
  exact ⟨group.infix_replaced (Guide.infix_insert? notice h), hnone⟩

end Group

/-- In a history with any groups and notices a guide is added at most once.  From the first text on
that has a heading, the document itself included, every text has one and no guide is added. -/
theorem guideAdded_at_most_once (steps : List (Group × Text)) (content : Text) :
    let runs := Template.history steps content
    runs.countP (·.guideAdded) ≤ 1 ∧
      (Guide.heading <:+: content →
        ∀ t ∈ runs, Guide.heading <:+: t.content ∧ t.guideAdded = false) ∧
      runs.Pairwise fun t u =>
        Guide.heading <:+: t.content → Guide.heading <:+: u.content ∧ u.guideAdded = false := by
  intro runs
  have hstep : ∀ step ∈ steps, ∀ text, Guide.heading <:+: text →
      Guide.heading <:+: (step.1.generalize step.2 text).content ∧
        (step.1.generalize step.2 text).guideAdded = false :=
    fun step _ _ h => step.1.infix_generalize step.2 h
  refine ⟨?_, Template.history_forall hstep, Template.history_pairwise content hstep⟩
  exact Template.countP_history_le_one content (fun _ _ _ h => Group.infix_of_guideAdded h) hstep

end CommandTemplates
