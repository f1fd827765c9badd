import PlaneSketch.Proofs.Acceptance
import PlaneSketch.Proofs.Consistency
import PlaneSketch.Proofs.LeftOut

/-!
# Room for a suggestion

An analysis makes suggestions while there is freedom left, and what it may do without asking takes
one degree of freedom to put a line on an axis (`axis_alignment`), but two to hold a point
(`anchor`). A drawing can be left with a single one although nothing holds it, when two of its
constraints say the same. Then holding a point leaves more equations than variables, and the next
solve is refused.
-/

namespace PlaneSketch

variable {α σ : Type} [Scalar α]

namespace Sketch

variable {s t : Sketch α} {m : Minimizer α σ}

/-! ### The state that suggestions are read off -/

/-- What a successful trial is called is decided by the count of freedom. -/
theorem status_trial_of_isSuccess {c : SolveConfig α} {state : σ}
    (h : ((s.trial m c).run state).1.result.isSuccess = true) :
    ((s.trial m c).run state).1.result.status = s.freedom.classify true := by
  rw [← freedom_of_outline s.outline_pinned]
  rcases s.trial_cases m c state with ⟨-, ht⟩ | ⟨-, -, ht⟩ | ⟨-, -, ht⟩
  · rw [ht] at h ⊢
    simp only [SolveConfig.judge] at h ⊢
    split at h
    next hgood => rw [if_pos hgood]; rfl
    next => cases h
  · rw [ht] at h
    cases h
  · rw [ht] at h ⊢
    unfold Objective.conclude at h ⊢
    split at h
    next fault _ => cases fault <;> cases h
    next =>
      dsimp only [SolveResult.isSuccess, SolveResult.status] at h ⊢
      unfold SolveConfig.causeOf at h ⊢
      split at h
      · cases h
      · split at h
        · cases h
        · split at h
          next hfinite hdone haccepts =>
            rw [if_neg hfinite, if_neg hdone, if_pos haccepts]
            rfl
          next => cases h

theorem dof_pos_of_classify {f : Freedom} (hdof : f.dof = (f.unknowns : Int) - f.equations)
    (h : f.classify true = .underConstrained) : 0 < f.dof := by
  unfold Freedom.classify at h
  split at h
  next => cases h
  next hbalanced =>
    rw [Bool.not_eq_true, ← equations_le_iff] at hbalanced
    simp only [Bool.not_true, Bool.false_eq_true, if_false] at h
    split at h
    next => cases h
    next => omega

theorem dof_pos_of_examine {c : SolveConfig α} {state : σ}
    (h : ((s.examine m c).run state).1.status = .underConstrained) : 0 < s.freedom.dof := by
  refine dof_pos_of_classify rfl ?_
  rcases s.examine_cases m c state with ⟨cause, hobstacle, hexamined⟩ | ⟨-, t, rfl, hexamined⟩
  · rw [hexamined] at h
    have hrefused := obstacle?_not_isSuccess hobstacle
    rw [show cause.status = _ from h] at hrefused
    cases hrefused
  · rw [hexamined] at h
    have hstatus : ((s.trial m c).run state).1.result.status = .underConstrained := h
    rw [← hstatus, status_trial_of_isSuccess]
    rw [SolveResult.isSuccess, hstatus]
    rfl

theorem suggestions_diagnoseFrom [NumberText α] {c : DiagnosisConfig α} {state : σ}
    {d : Diagnosis α} (h : s.diagnoseFrom m c state = .ok d) :
    d.suggestions = if d.status = .underConstrained then
      ((s.purge.2.examine m c.solver).run state).1.state.suggestions c else [] := by
  obtain ⟨redundant, conflicts, -, -, rfl⟩ := diagnosisOf_of_diagnoseFrom h
  rfl

/-- Suggestions are made for what an accepted trial leaves of a drawing, while there is freedom. -/
theorem mem_suggestions_diagnoseFrom [NumberText α] {c : DiagnosisConfig α} {state : σ}
    {d : Diagnosis α} (h : s.diagnoseFrom m c state = .ok d) {suggestion : Suggestion α}
    (hsuggestion : suggestion ∈ d.suggestions) :
    suggestion ∈ ((s.purge.2.examine m c.solver).run state).1.state.suggestions c ∧
      d.freedom = s.purge.2.freedom ∧ 0 < d.freedom.dof := by
  rw [suggestions_diagnoseFrom h] at hsuggestion
  split at hsuggestion
  next hunder =>
    obtain ⟨redundant, conflicts, -, -, rfl⟩ := diagnosisOf_of_diagnoseFrom h
    exact ⟨hsuggestion, rfl, dof_pos_of_examine hunder⟩
  next => cases hsuggestion

/-- What a diagnosis suggests is proposed for the examined state, about entities of the sketch. -/
theorem WellFormed.proposes_of_mem_diagnosis [NumberText α] (hs : s.WellFormed)
    {c : DiagnosisConfig α} {state : σ} {d : Diagnosis α} (h : s.diagnoseFrom m c state = .ok d)
    {suggestion : Suggestion α} (hsuggestion : suggestion ∈ d.suggestions) :
    let examined := ((s.purge.2.examine m c.solver).run state).1.state
    examined.WellFormed ∧ examined.outline = s.purge.2.outline ∧
      examined.Proposes suggestion.proposed suggestion.autoAddable ∧
      ∀ ref ∈ suggestion.targets, s.contains ref = true := by
  intro examined
  have houtline : examined.outline = s.purge.2.outline := s.purge.2.outline_examine m c.solver state
  have hexamined : examined.WellFormed :=
    (s.evolves_purge.wellFormed hs).of_outline houtline.symm
  have hproposed := proposes_of_mem_suggestions (mem_suggestions_diagnoseFrom h hsuggestion).1
  refine ⟨hexamined, houtline, hproposed, ?_⟩
  have hcontains : examined.contains = s.purge.2.contains := contains_of_outline houtline
  show ∀ ref ∈ suggestion.proposed.references, s.purge.2.contains ref = true
  rw [← hcontains]
  exact hproposed.contains hexamined

theorem exists_mem_suggestions_diagnoseFrom [NumberText α] {c : DiagnosisConfig α} {state : σ}
    {d : Diagnosis α} (h : s.diagnoseFrom m c state = .ok d)
    (hstatus : d.status = .underConstrained) {p : Suggestion α → Prop}
    (hfound : let found :=
        Suggestion.all ((s.purge.2.examine m c.solver).run state).1.state c.axisSnap
      found.length ≤ c.maxSuggestions ∧ ∃ suggestion ∈ found, p suggestion) :
    ∃ suggestion ∈ d.suggestions, p suggestion := by
  obtain ⟨hroom, suggestion, hin, hp⟩ := hfound
  rw [suggestions_diagnoseFrom h, if_pos hstatus]
  exact ⟨suggestion, (mem_suggestions_iff hroom).mpr hin, hp⟩

/-! ### Adding and purging -/

theorem outline_addConstraint (h : s.outline = t.outline) (r : Requirement α) :
    (s.addConstraint r).2.outline = (t.addConstraint r).2.outline := by
  have hconstraints : s.constraints = t.constraints := congrArg Outline.constraints h
  have hnext : s.nextConstraint = t.nextConstraint := congrArg Outline.nextConstraint h
  have hentities : s.entities.map Entity.outline = t.entities.map Entity.outline :=
    congrArg Outline.entities h
  have hname : s.name = t.name := congrArg Outline.name h
  have hindex : s.index = t.index := congrArg Outline.index h
  have hnextEntity : s.nextEntity = t.nextEntity := congrArg Outline.nextEntity h
  have hremoved : s.removed = t.removed := congrArg Outline.removed h
  simp only [outline, addConstraint, hconstraints, hnext, hentities, hname, hindex, hnextEntity,
    hremoved]

omit [Scalar α] in
theorem purge_of_nil (s : Sketch α) (h : s.purge.1 = []) : s.purge.2 = s := by
  rw [purge_eq_filter] at h ⊢
  have hkept : (s.constraints.filter fun k => !s.isDangling k) = s.constraints := by
    refine List.filter_eq_self.mpr fun k hk => ?_
    rw [Bool.not_eq_true', ← Bool.not_eq_true]
    exact List.filter_eq_nil_iff.mp h k hk
  simp only [hkept]

/-- A constraint on entities of the sketch is not purged. -/
theorem WellFormed.purge_addConstraint (hs : s.WellFormed) {r : Requirement α}
    (hfound : ∀ ref ∈ r.references, s.contains ref = true) :
    (s.addConstraint r).2.purge = (s.purge.1, (s.purge.2.addConstraint r).2) := by
  have hstays : s.isDangling (s.nextConstraintOf r) = false := by
    refine List.any_eq_false.mpr fun ref href hgone => ?_
    obtain ⟨e, he, rfl⟩ := hs.contains_iff.mp (hfound ref href)
    exact hs.removed_gone _ (of_decide_eq_true hgone) (List.mem_map_of_mem he)
  have hdangling : (s.addConstraint r).2.isDangling = s.isDangling := rfl
  rw [purge_eq_filter, purge_eq_filter, hdangling, constraints_addConstraint, List.filter_append,
    List.filter_append]
  simp only [List.filter_cons, List.filter_nil, hstays, Bool.not_false, if_true,
    Bool.false_eq_true, if_false, List.append_nil]
  rfl

/-! ### What can be added without asking -/

theorem Proposes.isFixed_or_dofWeight {r : Requirement α} (h : s.Proposes r true) :
    r.isFixed = true ∧ r.dofWeight = 2 ∨ r.isFixed = false ∧ r.dofWeight = 1 := by
  cases h with
  | anchor => exact Or.inl ⟨rfl, rfl⟩
  | horizontal | vertical => exact Or.inr ⟨rfl, rfl⟩

/-- A suggestion that can be added without asking leaves no more equations than variables, except
that holding a point does when a single degree of freedom is left. What is counted is the drawing
that is analysed and solved, without dangling constraints; where there are none, that is the sketch
itself. -/
theorem dof_autoAddable_iff [NumberText α] (hs : s.WellFormed) {c : DiagnosisConfig α} {state : σ}
    {d : Diagnosis α} (h : s.diagnoseFrom m c state = .ok d) {suggestion : Suggestion α}
    (hsuggestion : suggestion ∈ d.suggestions) (hauto : suggestion.autoAddable = true) :
    let applied := (s.applySuggestion suggestion).2
    applied.purge.2.freedom.dof = d.freedom.dof - suggestion.dofReduction ∧
      (0 ≤ applied.purge.2.freedom.dof ↔
        ¬(suggestion.proposed.isFixed = true ∧ d.freedom.dof = 1)) ∧
      (s.purge.1 = [] → applied.purge.2 = applied ∧
        applied.freedom.dof = d.freedom.dof - suggestion.dofReduction ∧
        (0 ≤ applied.freedom.dof ↔
          ¬(suggestion.proposed.isFixed = true ∧ d.freedom.dof = 1))) := by
  intro applied
  obtain ⟨-, hfreedom, hpos⟩ := mem_suggestions_diagnoseFrom h hsuggestion
  obtain ⟨hexamined, houtline, hproposed, hfound⟩ := hs.proposes_of_mem_diagnosis h hsuggestion
  have hpurge := hs.purge_addConstraint hfound
  have hdof : applied.purge.2.freedom.dof = d.freedom.dof - suggestion.dofReduction := by
    have hadded : applied.purge.2 = (s.purge.2.addConstraint suggestion.proposed).2 :=
      congrArg Prod.snd hpurge
    rw [hadded, ← freedom_of_outline (outline_addConstraint houtline _),
      hexamined.dof_addConstraint hproposed, freedom_of_outline houtline, hfreedom]
    rfl
  rw [hauto] at hproposed
  have hroom : 0 ≤ applied.purge.2.freedom.dof ↔
      ¬(suggestion.proposed.isFixed = true ∧ d.freedom.dof = 1) := by
    rw [hdof, Suggestion.dofReduction]
    rcases hproposed.isFixed_or_dofWeight with ⟨hfixed, hweight⟩ | ⟨hfixed, hweight⟩
    · simp only [hfixed, hweight, true_and]
      omega
    · rw [hfixed, hweight]
      refine iff_of_true (by omega) ?_
      rintro ⟨hfalse, -⟩
      cases hfalse
  refine ⟨hdof, hroom, fun hnone => ?_⟩
  have hsame : applied.purge.2 = applied :=
    applied.purge_of_nil ((congrArg Prod.fst hpurge).trans hnone)
  rw [hsame] at hdof hroom
  exact ⟨hsame, hdof, hroom⟩

open Operation

theorem exists_diagnosis_adrift :
    ∃ d, adrift.diagnoseFrom (.null : Minimizer Float Unit) .standard () = .ok d ∧
      d.status = .underConstrained ∧ d.freedom.dof = 3 := by
  have hok : (adrift.diagnoseFrom (.null : Minimizer Float Unit) .standard ()).toOption.map
      (fun d => (d.status, d.freedom.dof)) = some (.underConstrained, 3) := by
    decide +kernel
  obtain ⟨d, hd, hcounts⟩ := Option.map_eq_some_iff.mp hok
  exact ⟨d, ok_of_toOption hd, Prod.mk.inj hcounts⟩

theorem dof_autoAddable_adrift :
    ∃ d, adrift.diagnoseFrom (.null : Minimizer Float Unit) .standard () = .ok d ∧
      ∃ suggestion ∈ d.suggestions,
        suggestion.proposed.isFixed = true ∧ suggestion.autoAddable = true ∧
          0 ≤ (adrift.applySuggestion suggestion).2.purge.2.freedom.dof ∧
          0 ≤ (adrift.applySuggestion suggestion).2.freedom.dof := by
  have hs : adrift.WellFormed := wellFormed_run_empty _ "adrift"
  have hnone : adrift.purge.1 = [] := by decide +kernel
  obtain ⟨d, hd, hstatus, hdof⟩ := exists_diagnosis_adrift
  obtain ⟨suggestion, hin, hfixed, hauto⟩ := exists_mem_suggestions_diagnoseFrom hd hstatus
    (p := fun suggestion => suggestion.proposed.isFixed = true ∧ suggestion.autoAddable = true)
    (by decide +kernel)
  have hmore : ¬(suggestion.proposed.isFixed = true ∧ d.freedom.dof = 1) := by
    rintro ⟨-, hone⟩
    rw [hdof] at hone
    cases hone
  obtain ⟨-, hpurged, hitself⟩ := dof_autoAddable_iff hs hd hin hauto
  exact ⟨d, hd, suggestion, hin, hfixed, hauto, hpurged.mpr hmore, (hitself hnone).2.2.mpr hmore⟩

/-- A line that is to be horizontal twice, at its length. -/
def levelTwice : Sketch Float :=
  run [.addPoint ⟨0.0, 0.0⟩, .addPoint ⟨1.0, 0.0⟩, .addLine ⟨0⟩ ⟨1⟩,
    .addConstraint (.horizontal ⟨2⟩), .addConstraint (.horizontal ⟨2⟩),
    .addConstraint (.length ⟨2⟩ 1.0)] (empty "level")

theorem exists_autoAddable_overConstraining :
    ∃ d, levelTwice.diagnoseFrom (.answering [0.0, 0.0, 1.0, 0.0]) .standard () = .ok d ∧
      d.status = .underConstrained ∧
      ∃ suggestion ∈ d.suggestions, suggestion.autoAddable = true ∧
        (levelTwice.applySuggestion suggestion).2.freedom.dof = -1 := by
  have hok : (levelTwice.diagnoseFrom (.answering [0.0, 0.0, 1.0, 0.0]) .standard
      ()).toOption.map (·.status) = some .underConstrained := by
    decide +kernel
  obtain ⟨d, hd, hstatus⟩ := Option.map_eq_some_iff.mp hok
  have hd := ok_of_toOption hd
  exact ⟨d, hd, hstatus, exists_mem_suggestions_diagnoseFrom hd hstatus (by decide +kernel)⟩

end Sketch

end PlaneSketch
