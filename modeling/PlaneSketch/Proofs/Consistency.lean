import PlaneSketch.Proofs.Gates
import PlaneSketch.Proofs.Implied
import PlaneSketch.Proofs.Overlaps

/-!
# Consistent diagnoses

A diagnosis (`analyze`) is put together from searches that look at copies of the drawing and run at
different outcomes of the gates. Its lists still fit together: all of them speak of the constraints
of one drawing, and none of them is filled where its search makes no sense.
-/

namespace PlaneSketch

variable {α σ : Type} [Scalar α] [NumberText α]

/-! ### Diagnoses by their parts -/

/-- The diagnosis of a drawing without dangling constraints, from what the gates and the searches
found. -/
def Sketch.diagnosisOf (drawing : Sketch α) (c : DiagnosisConfig α) (purged : List (Constraint α))
    (examined : Examination α) (redundant : List Redundancy) (conflicts : List Conflict) :
    Diagnosis α where
  name := drawing.name
  status := examined.status
  freedom := drawing.freedom
  constraints := drawing.constraints.map fun k =>
    ⟨k, examined.state.errorOf k.requirement, redundant.any (·.id = k.id),
      (redundant.find? (·.id = k.id)).map (·.reason)⟩
  redundant := redundant.map (·.id)
  conflicts
  suggestions := if examined.status = .underConstrained then examined.state.suggestions c else []
  invalid := drawing.invalidConstraints
  purged := purged.map (·.id)
  solve? := examined.solve?

namespace Sketch

variable {s : Sketch α} {m : Minimizer α σ} {c : DiagnosisConfig α} {state : σ} {d : Diagnosis α}

/-- Redundant constraints are searched for unless an active constraint is invalid, and conflicts at
some outcomes of the gates only. -/
theorem diagnosisOf_of_diagnoseFrom (h : s.diagnoseFrom m c state = .ok d) :
    let drawing := s.purge.2
    let examined := ((drawing.examine m c.solver).run state).1
    ∃ redundant conflicts,
      (redundant = [] ∨ drawing.invalidActive = [] ∧
        ∃ state', redundant = ((drawing.redundancies m c).run state').1) ∧
      (conflicts = [] ∨ examined.status.mayConflict = true ∧
        ∃ numeric state', conflicts = ((drawing.conflicts m c numeric).run state').1) ∧
      d = drawing.diagnosisOf c s.purge.1 examined redundant conflicts := by
  unfold diagnoseFrom diagnose at h
  cases hnumbers : s.checkNumbers with
  | error =>
    rw [hnumbers] at h
    cases h
  | ok =>
    rw [hnumbers] at h
    dsimp only at h
    rw [run_bind_fst] at h
    intro drawing examined
    split at h
    next =>
      rw [run_bind_fst] at h
      split at h
      next hmay =>
        rw [run_bind_fst] at h
        exact ⟨[], _, Or.inl rfl, Or.inr ⟨hmay, _, _, rfl⟩, (Except.ok.inj h).symm⟩
      next =>
        rw [run_bind_fst] at h
        exact ⟨[], [], Or.inl rfl, Or.inl rfl, (Except.ok.inj h).symm⟩
    next hfits =>
      have hvalid : drawing.invalidActive = [] :=
        hasInvalid_eq_false_iff.mp (Bool.eq_false_iff.mpr hfits)
      rw [run_bind_fst] at h
      split at h
      next hmay =>
        rw [run_bind_fst] at h
        exact ⟨_, _, Or.inr ⟨hvalid, _, rfl⟩, Or.inr ⟨hmay, _, _, rfl⟩, (Except.ok.inj h).symm⟩
      next =>
        rw [run_bind_fst] at h
        exact ⟨_, [], Or.inr ⟨hvalid, _, rfl⟩, Or.inl rfl, (Except.ok.inj h).symm⟩

end Sketch

/-! ### Consistency -/

/-- The lists of a diagnosis speak of the constraints of one drawing and are filled only where they
make sense. -/
structure Diagnosis.Consistent (d : Diagnosis α) (drawing : Sketch α) (c : DiagnosisConfig α) :
    Prop where
  constraints : d.constraints.map (·.constraint) = drawing.constraints
  redundant_reported : ∀ id ∈ d.redundant, (d.constraint? id).isSome = true
  invalid_reported : ∀ id ∈ d.invalid.map (·.1), (d.constraint? id).isSome = true
  members_reported : ∀ conflict ∈ d.conflicts, ∀ id ∈ conflict.members,
    (d.constraint? id).isSome = true
  purged_not_reported : ∀ id ∈ d.purged, d.constraint? id = none
  isRedundant_iff : ∀ r ∈ d.constraints, r.isRedundant = true ↔ r.id ∈ d.redundant
  reason_iff : ∀ r ∈ d.constraints, r.redundancy?.isSome = true ↔ r.id ∈ d.redundant
  not_tried_iff : d.solve? = none ↔
    (∃ k ∈ drawing.active, k.defect? drawing ≠ none) ∨
      drawing.freedom.unknowns < drawing.freedom.equations
  not_redundant : (∃ k ∈ drawing.active, k.defect? drawing ≠ none) → d.redundant = []
  conflicting : d.conflicts ≠ [] →
    d.status = .overConstrained ∨ d.status = .inconsistent ∨ d.status = .didntConverge
  suggesting : d.suggestions ≠ [] → d.status = .underConstrained
  suggestions_sorted : d.suggestions.Pairwise fun first second =>
    first.priority.rank ≤ second.priority.rank
  suggestions_bounded : d.suggestions.length ≤ c.maxSuggestions

omit [NumberText α] [Scalar α] in
theorem Diagnosis.isSome_constraint?_iff (d : Diagnosis α) (id : ConstraintId) :
    (d.constraint? id).isSome = true ↔ id ∈ d.constraints.map (·.constraint.id) := by
  unfold constraint?
  rw [List.find?_isSome, List.mem_map]
  simp only [decide_eq_true_eq]
  rfl

namespace Sketch

variable {s drawing : Sketch α} {m : Minimizer α σ} {c : DiagnosisConfig α} {state : σ}
  {d : Diagnosis α}

theorem suggestions_sorted (s : Sketch α) (c : DiagnosisConfig α) :
    (s.suggestions c).Pairwise fun first second =>
      first.priority.rank ≤ second.priority.rank :=
  (pairwise_mergeSort_key (fun suggestion : Suggestion α => suggestion.priority.rank) _).sublist
    (List.take_sublist ..)

omit [NumberText α] in
theorem invalidConstraints_ids_subset (s : Sketch α) :
    s.invalidConstraints.map (·.1) ⊆ s.constraints.map (·.id) := by
  intro id hid
  obtain ⟨⟨_, defect⟩, hinvalid, rfl⟩ := List.mem_map.mp hid
  obtain ⟨k, hk, hdefect⟩ := List.mem_filterMap.mp hinvalid
  split at hdefect
  · obtain ⟨_, -, hpair⟩ := Option.map_eq_some_iff.mp hdefect
    cases hpair
    exact List.mem_map_of_mem hk
  · cases hdefect

omit [NumberText α] [Scalar α] in
theorem WellFormed.not_mem_of_purged (hs : s.WellFormed) {id : ConstraintId}
    (hid : id ∈ s.purge.1.map (·.id)) : id ∉ s.purge.2.constraints.map (·.id) := by
  intro hkept
  rw [purge_eq_filter] at hid hkept
  obtain ⟨k, hk, rfl⟩ := List.mem_map.mp hid
  obtain ⟨k', hk', hsame⟩ := List.mem_map.mp hkept
  obtain ⟨hmem, hdangling⟩ := List.mem_filter.mp hk
  obtain ⟨hmem', hstays⟩ := List.mem_filter.mp hk'
  rw [List.inj_on_of_nodup_map hs.constraint_ids_nodup hmem' hmem hsame, hdangling] at hstays
  cases hstays

omit [NumberText α] in
theorem solve?_examine_eq_none_iff (drawing : Sketch α) (m : Minimizer α σ) (c : SolveConfig α)
    (state : σ) :
    ((drawing.examine m c).run state).1.solve? = none ↔ drawing.obstacle? ≠ none := by
  rcases drawing.examine_cases m c state with ⟨cause, hobstacle, hexamined⟩ |
    ⟨hclear, t, -, hexamined⟩
  · rw [hexamined, hobstacle]
    exact iff_of_true rfl nofun
  · rw [hexamined, hclear]
    exact iff_of_false nofun fun hsome => hsome rfl

section

variable {purged : List (Constraint α)} {examined : Examination α} {redundant : List Redundancy}
  {conflicts : List Conflict}

theorem isSome_constraint?_diagnosisOf {id : ConstraintId} :
    ((drawing.diagnosisOf c purged examined redundant conflicts).constraint? id).isSome = true ↔
      id ∈ drawing.constraints.map (·.id) := by
  have hids : (drawing.diagnosisOf c purged examined redundant conflicts).constraints.map
      (·.constraint.id) = drawing.constraints.map (·.id) :=
    List.map_map ..
  rw [Diagnosis.isSome_constraint?_iff, hids]

theorem isRedundant_diagnosisOf {r : ConstraintReport α}
    (hr : r ∈ (drawing.diagnosisOf c purged examined redundant conflicts).constraints) :
    r.isRedundant = true ↔ r.id ∈ redundant.map (·.id) := by
  obtain ⟨k, -, rfl⟩ := List.mem_map.mp hr
  show redundant.any (·.id = k.id) = true ↔ k.id ∈ redundant.map (·.id)
  rw [List.any_eq_true, List.mem_map]
  simp only [decide_eq_true_eq]

theorem reason_diagnosisOf {r : ConstraintReport α}
    (hr : r ∈ (drawing.diagnosisOf c purged examined redundant conflicts).constraints) :
    r.redundancy?.isSome = true ↔ r.id ∈ redundant.map (·.id) := by
  obtain ⟨k, -, rfl⟩ := List.mem_map.mp hr
  rw [Option.isSome_map, List.find?_isSome, List.mem_map]
  simp only [decide_eq_true_eq]
  rfl

end

/-- Whatever the minimizer does, a diagnosis is consistent. -/
theorem diagnose_consistent (hs : s.WellFormed) (h : s.diagnoseFrom m c state = .ok d) :
    d.Consistent s.purge.2 c := by
  have hdrawing : s.purge.2.WellFormed := s.evolves_purge.wellFormed hs
  obtain ⟨redundant, conflicts, hredundant, hconflicts, rfl⟩ := diagnosisOf_of_diagnoseFrom h
  have hobstacle := solve?_examine_eq_none_iff s.purge.2 m c.solver state
  generalize ((s.purge.2.examine m c.solver).run state).1 = examined at hconflicts hobstacle
  have hinvalid : (∃ k ∈ s.purge.2.active, k.defect? s.purge.2 ≠ none) ↔
      s.purge.2.invalidActive ≠ [] := by
    rw [Ne, hdrawing.invalidActive_eq_nil_iff]
    simp only [not_forall, exists_prop]
  have hsuggestions : (s.purge.2.diagnosisOf c s.purge.1 examined redundant conflicts).suggestions =
      if examined.status = .underConstrained then examined.state.suggestions c else [] :=
    rfl
  constructor
  case constraints => exact (List.map_map ..).trans (List.map_id _)
  case redundant_reported =>
    intro id hid
    refine isSome_constraint?_diagnosisOf.mpr ?_
    rcases hredundant with rfl | ⟨-, state', rfl⟩
    · cases hid
    · exact s.purge.2.redundancies_ids_subset m c state' hid
  case invalid_reported =>
    intro id hid
    exact isSome_constraint?_diagnosisOf.mpr (s.purge.2.invalidConstraints_ids_subset hid)
  case members_reported =>
    intro conflict hconflict id hid
    refine isSome_constraint?_diagnosisOf.mpr ?_
    rcases hconflicts with rfl | ⟨-, numeric, state', rfl⟩
    · cases hconflict
    · exact (List.filter_sublist.map _).subset (members_subset_of_mem_conflicts hconflict hid)
  case purged_not_reported =>
    intro id hid
    rw [← Option.not_isSome_iff_eq_none, isSome_constraint?_diagnosisOf]
    exact hs.not_mem_of_purged hid
  case isRedundant_iff => exact fun r hr => isRedundant_diagnosisOf hr
  case reason_iff => exact fun r hr => reason_diagnosisOf hr
  case not_tried_iff =>
    refine hobstacle.trans ?_
    rw [Ne, hdrawing.obstacle?_eq_none_iff, ← hdrawing.invalidActive_eq_nil_iff, hinvalid,
      not_and_or, Nat.not_le]
  case not_redundant =>
    intro hdefect
    rcases hredundant with rfl | ⟨hfits, -⟩
    · rfl
    · exact absurd hfits (hinvalid.mp hdefect)
  case conflicting =>
    intro hfound
    rcases hconflicts with rfl | ⟨hmay, -⟩
    · exact absurd rfl hfound
    · show examined.status = _ ∨ examined.status = _ ∨ examined.status = _
      unfold Status.mayConflict at hmay
      split at hmay
      next heq => exact Or.inl heq
      next heq => exact Or.inr (Or.inl heq)
      next heq => exact Or.inr (Or.inr heq)
      next => cases hmay
  case suggesting =>
    rw [hsuggestions]
    intro hfound
    by_contra hstatus
    exact hfound (if_neg hstatus)
  case suggestions_sorted =>
    rw [hsuggestions]
    split
    · exact examined.state.suggestions_sorted c
    · exact List.Pairwise.nil
  case suggestions_bounded =>
    rw [hsuggestions]
    split
    · exact List.length_take_le ..
    · exact Nat.zero_le _

theorem diagnose_consistent_overpinned :
    ∃ d, overpinned.diagnoseFrom (.null : Minimizer Float Unit) .standard () = .ok d ∧
      d.constraints.map (·.constraint) = overpinned.constraints ∧ d.solve? = none ∧
      d.suggestions = [] := by
  have hstatus : (overpinned.diagnoseFrom (.null : Minimizer Float Unit) .standard ()).toOption.map
      (·.status) = some .overConstrained := by
    decide +kernel
  obtain ⟨d, hok, hstatus⟩ := Option.map_eq_some_iff.mp hstatus
  have hd := ok_of_toOption hok
  have hconsistent := diagnose_consistent wellFormed_overpinned hd
  have hover : overpinned.purge.2.freedom.unknowns < overpinned.purge.2.freedom.equations := by
    decide +kernel
  refine ⟨d, hd, hconsistent.constraints, hconsistent.not_tried_iff.mpr (Or.inr hover), ?_⟩
  by_contra hsome
  rw [hconsistent.suggesting hsome] at hstatus
  cases hstatus

end Sketch

end PlaneSketch
