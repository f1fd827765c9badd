import PlaneSketch.Proofs.Findings

/-!
# Inactive constraints are invisible

The search for a conflict by solving (`numeric_conflict`) looks at the active constraints only, and
so does all the rest of an analysis. Removing a constraint that takes no part in solving changes
neither what a solve does nor what an analysis finds.
-/

namespace PlaneSketch

variable {α σ : Type} [Scalar α]

/-! ### The worst constraint -/

theorem ErrorSummary.mem_of_worst_of {s : Sketch α} {constraints : List (Constraint α)}
    {id : ConstraintId} (h : (ErrorSummary.of s constraints).worst = some id) :
    id ∈ constraints.map (·.id) := by
  have hworst : (constraints.foldl (fun summary k => summary.add k (s.errorOf k.requirement))
      none).worst = some id := h
  revert hworst
  have hnone : (none : ErrorSummary α).worst = some id → id ∈ constraints.map (·.id) := by
    intro hworst
    cases hworst
  refine List.foldlRecOn (motive := fun summary : ErrorSummary α => summary.worst = some id →
    id ∈ constraints.map (·.id)) _ _ hnone ?_
  intro summary hsummary k hk hadd
  unfold add at hadd
  split at hadd
  · exact hsummary hadd
  · dsimp only at hadd
    split at hadd
    · cases hadd
      exact List.mem_map_of_mem hk
    · exact hsummary hadd

theorem Sketch.mem_of_worst_trial {s : Sketch α} {m : Minimizer α σ} {c : SolveConfig α}
    {state : σ} {id : ConstraintId}
    (h : ((s.trial m c).run state).1.result.errors.worst = some id) :
    id ∈ s.active.map (·.id) := by
  rw [← active_of_outline s.outline_pinned]
  rcases s.trial_cases m c state with ⟨-, ht⟩ | ⟨-, -, ht⟩ | ⟨-, -, ht⟩
  · rw [ht] at h
    refine ErrorSummary.mem_of_worst_of (s := s.pinned) ?_
    rw [← h]
    unfold SolveConfig.judge
    dsimp only
    split <;> rfl
  · rw [ht] at h
    cases h
  · rw [ht] at h
    unfold Objective.conclude at h
    split at h
    · cases h
    · exact ErrorSummary.mem_of_worst_of h

/-! ### Conflicts found by solving -/

namespace Conflict

open Sketch

variable {s t : Sketch α}

omit [Scalar α] in
theorem ofUnsolved_of_findsSame {known : List ConstraintId} (hfound : s.FindsSame t known)
    {ids : List ConstraintId} (hids : ids ⊆ known) (narrowed : Bool) :
    ofUnsolved s ids narrowed = ofUnsolved t ids narrowed := by
  have hmembers := List.Subset.trans (ascendingIds_subset ids) hids
  have hlabels : s.labelsOf (ascendingIds ids) = t.labelsOf (ascendingIds ids) :=
    hfound.labelsOf_eq hmembers
  have hcategory : categoryOf s (ascendingIds ids) = categoryOf t (ascendingIds ids) := by
    unfold categoryOf
    rw [List.filterMap_congr fun id hid => hfound id (hmembers hid)]
  unfold ofUnsolved
  dsimp only
  rw [hlabels, hcategory]
  cases hlast : (ascendingIds ids).getLast? with
  | none => rfl
  | some newest =>
    have hnewest := hmembers (List.mem_of_getLast? hlast)
    simp only [Option.map_some, hfound.labelOf_eq hnewest]

omit [Scalar α] in
theorem connectedTo_subset {active : List (Constraint α)} {seeds known : List ConstraintId}
    (hactive : active.map (·.id) ⊆ known) (hseeds : seeds ⊆ known) :
    connectedTo s active seeds ⊆ known := by
  let touched := active.map fun k => (k.id, s.touchedPoints k.requirement)
  have hround (found : List ConstraintId × List PointId) (hfound : found.1 ⊆ known) :
      (reachFrom touched found).1 ⊆ known := by
    refine List.foldlRecOn (motive := fun found : List ConstraintId × List PointId =>
      found.1 ⊆ known) _ _ hfound ?_
    rintro ⟨ids, points⟩ hids ⟨id, own⟩ hin
    dsimp only
    split
    · obtain ⟨k, hk, hpair⟩ := List.mem_map.mp hin
      cases hpair
      exact List.cons_subset.mpr ⟨hactive (List.mem_map_of_mem hk), hids⟩
    · exact hids
  refine List.Subset.trans (ascendingIds_subset _) ?_
  show (Nat.repeat (reachFrom touched) touched.length _).1 ⊆ known
  induction touched.length with
  | zero => exact hseeds
  | succ rounds ih => exact hround _ ih

theorem unsatisfied_subset {active : List (Constraint α)} {known : List ConstraintId}
    (hactive : active.map (·.id) ⊆ known) {trial : Trial α}
    (hworst : ∀ id, trial.result.errors.worst = some id → id ∈ known) (tolerance : α) :
    unsatisfied active tolerance trial ⊆ known := by
  unfold unsatisfied
  dsimp only
  split
  · exact fun id hid => hworst id (Option.mem_toList.mp hid)
  · exact List.Subset.trans (List.filter_sublist.map _).subset hactive

theorem run_shrink_cons (s : Sketch α) (m : Minimizer α σ) (c : DiagnosisConfig α)
    (id : ConstraintId) (rest core : List ConstraintId) (state : σ) :
    let smaller := core.filter (· ≠ id)
    let tested := (isFeasible s m c smaller).run state
    (shrink s m c (id :: rest) core).run state =
      (shrink s m c rest (if tested.1 then core else smaller)).run tested.2 := by
  intro smaller tested
  rw [shrink, run_bind]
  show (if tested.1 then shrink s m c rest core else shrink s m c rest smaller).run tested.2 = _
  split <;> rfl

theorem shrink_subset (s : Sketch α) (m : Minimizer α σ) (c : DiagnosisConfig α)
    (candidates core : List ConstraintId) (state : σ) :
    ((shrink s m c candidates core).run state).1 ⊆ core := by
  induction candidates generalizing core state with
  | nil => exact List.Subset.refl _
  | cons id rest ih =>
    rw [run_shrink_cons]
    refine List.Subset.trans (ih _ _) ?_
    split
    · exact List.Subset.refl _
    · exact List.filter_sublist.subset

variable (h : s.onlyActive = t.onlyActive) (m : Minimizer α σ) (c : DiagnosisConfig α)

include h

omit [Scalar α] in
theorem connectedTo_of_onlyActive (active : List (Constraint α)) (seeds : List ConstraintId) :
    connectedTo s active seeds = connectedTo t active seeds := by
  unfold connectedTo
  rw [touchedPoints_of_onlyActive h]

theorem isFeasible_of_onlyActive (ids : List ConstraintId) :
    isFeasible s m c ids = isFeasible t m c ids := by
  -- of the active constraints, those with the ids stay, whatever other constraints there are
  have hothers (u : Sketch α) :
      (u.without ((u.constraints.map (·.id)).filter (· ∉ ids))).onlyActive =
        { u.onlyActive with constraints := u.onlyActive.constraints.filter (·.id ∈ ids) } := by
    show { u with constraints := (u.without _).active } = _
    rw [active_without]
    refine congrArg (fun constraints => { u with constraints := constraints }) ?_
    refine List.filter_congr fun k hk => ?_
    have hid : k.id ∈ u.constraints.map (·.id) := List.mem_map_of_mem (List.mem_of_mem_filter hk)
    simp [hid, List.mem_filter]
  have hwithout : (s.without ((s.constraints.map (·.id)).filter (· ∉ ids))).onlyActive =
      (t.without ((t.constraints.map (·.id)).filter (· ∉ ids))).onlyActive := by
    rw [hothers, hothers, h]
  exact (triedAlike_of_onlyActive hwithout).trial_bind fun _ => rfl

theorem shrink_of_onlyActive (candidates core : List ConstraintId) :
    shrink s m c candidates core = shrink t m c candidates core := by
  induction candidates generalizing core with
  | nil => rfl
  | cons id rest ih => simp only [shrink, isFeasible_of_onlyActive h, ih]

theorem bySolving?_of_onlyActive {active : List (Constraint α)}
    (hactive : active.map (·.id) ⊆ t.active.map (·.id))
    (hfound : s.FindsSame t (t.active.map (·.id))) :
    bySolving? s active m c = bySolving? t active m c := by
  unfold bySolving?
  refine (triedAlike_of_onlyActive h).trial_bind ?_
  intro state trial
  let ids := unsatisfied active c.solver.maxErrorTolerance
    { trial with sketch := t.pinned.finished trial.rounds }
  have hids : unsatisfied active c.solver.maxErrorTolerance
      { trial with sketch := s.pinned.finished trial.rounds } = ids := by
    unfold ids unsatisfied
    rw [errorOf_of_onlyActive (finished_of_onlyActive h trial.rounds)]
  have hknown : ids ⊆ t.active.map (·.id) := by
    refine unsatisfied_subset hactive ?_ _
    intro id hid
    exact mem_of_worst_trial hid
  let connected := connectedTo t active ids
  have hconnected : connected ⊆ t.active.map (·.id) := connectedTo_subset hactive hknown
  have hshrunk : (do return some (ofUnsolved s (← shrink t m c connected connected) true)) =
      (do return some (ofUnsolved t (← shrink t m c connected connected) true)) := by
    refine bind_congr_run fun state => ?_
    have hcore := List.Subset.trans (shrink_subset t m c connected connected state) hconnected
    rw [ofUnsolved_of_findsSame hfound hcore]
  dsimp only
  rw [hids, connectedTo_of_onlyActive h, isFeasible_of_onlyActive h, shrink_of_onlyActive h,
    ofUnsolved_of_findsSame hfound hknown, hshrunk]

end Conflict

/-! ### Findings -/

namespace Sketch

variable {s t : Sketch α}

theorem conflicts_of_onlyActive [NumberText α] (h : s.onlyActive = t.onlyActive)
    (hfound : s.FindsSame t (t.active.map (·.id))) (m : Minimizer α σ) (c : DiagnosisConfig α)
    (numeric : Bool) : s.conflicts m c numeric = t.conflicts m c numeric := by
  have hactive : s.active = t.active := congrArg Sketch.constraints h
  have hrules : s.ruleConflicts c = t.ruleConflicts c :=
    ruleConflicts_of_onlyActive h (hactive ▸ hfound) c
  unfold conflicts
  rw [hrules, validActive_of_onlyActive h,
    Conflict.bySolving?_of_onlyActive h m c t.validActive_ids_subset hfound]

theorem suggestions_onlyActive [NumberText α] (s : Sketch α) (c : DiagnosisConfig α) :
    s.onlyActive.suggestions c = s.suggestions c := by
  have hrequires : s.onlyActive.requires = s.requires := by
    unfold requires
    rw [active_onlyActive]
  have hanchor : s.onlyActive.anchorPoint? = s.anchorPoint? := by
    unfold anchorPoint?
    rw [pins_onlyActive, active_onlyActive]
    rfl
  unfold suggestions Suggestion.all Suggestion.anchors Suggestion.alignment? Suggestion.length?
    Suggestion.radius? Suggestion.angle?
  rw [hrequires, hanchor]
  rfl

/-- An examination of sketches with the same active constraints is the same but for the inactive
ones in the state that is looked at. -/
theorem examine_bind {β : Type} (h : s.onlyActive = t.onlyActive)
    (hobstacle : s.obstacle? = t.obstacle?) (m : Minimizer α σ) (c : SolveConfig α)
    {next next' : Examination α → StateM σ β}
    (hnext : ∀ status solve? state state', state.onlyActive = state'.onlyActive →
      next ⟨status, solve?, state⟩ = next' ⟨status, solve?, state'⟩) :
    s.examine m c >>= next = t.examine m c >>= next' := by
  cases htried : t.obstacle? with
  | some cause =>
    rw [examine_of_obstacle? (hobstacle.trans htried), examine_of_obstacle? htried]
    exact hnext _ _ _ _ h
  | none =>
    rw [examine_of_clear (hobstacle.trans htried), examine_of_clear htried, bind_assoc, bind_assoc]
    refine (triedAlike_of_onlyActive h).trial_bind ?_
    intro state trial
    dsimp only
    rw [pure_bind, pure_bind]
    refine hnext _ _ _ _ ?_
    cases trial.accepted with
    | false => exact h
    | true => exact finished_of_onlyActive h trial.rounds

end Sketch

/-- What an analysis says about a drawing as a whole, without what it says about each constraint. -/
structure Findings (α : Type) where
  status : Status
  freedom : Freedom
  redundant : List ConstraintId
  conflicts : List Conflict
  suggestions : List (Suggestion α)
  solve? : Option (SolveResult α)
deriving DecidableEq

def Diagnosis.findings (d : Diagnosis α) : Findings α :=
  ⟨d.status, d.freedom, d.redundant, d.conflicts, d.suggestions, d.solve?⟩

namespace Sketch

variable {s t : Sketch α}

theorem diagnose_findings [NumberText α] (h : s.onlyActive = t.onlyActive)
    (hs : (s.constraints.map (·.id)).Nodup) (ht : (t.constraints.map (·.id)).Nodup)
    (m : Minimizer α σ) (c : DiagnosisConfig α) :
    Except.map Diagnosis.findings <$> s.diagnose m c =
      Except.map Diagnosis.findings <$> t.diagnose m c := by
  have hnumbers : s.checkNumbers = t.checkNumbers := by
    have hsame : s.onlyActive.checkNumbers = t.onlyActive.checkNumbers := by rw [h]
    exact hsame
  unfold diagnose
  rw [hnumbers]
  cases t.checkNumbers with
  | error => rfl
  | ok =>
    have hpurged : s.purge.2.onlyActive = t.purge.2.onlyActive := purge_of_onlyActive h
    have hsnodup := nodup_ids_purge hs
    have htnodup := nodup_ids_purge ht
    have hfound := findsSame_of_onlyActive hpurged hsnodup htnodup
    rw [show s.purge.2.active = t.purge.2.active from congrArg Sketch.constraints hpurged] at hfound
    dsimp only
    rw [map_bind, map_bind]
    refine examine_bind hpurged (obstacle?_of_onlyActive hpurged hsnodup htnodup) m c.solver ?_
    intro status solve? state state' hstate
    have hsuggestions : state.suggestions c = state'.suggestions c := by
      rw [← suggestions_onlyActive, hstate, suggestions_onlyActive]
    dsimp only
    rw [hasInvalid_eq, hasInvalid_eq, invalidActive_of_onlyActive hpurged hsnodup htnodup,
      redundancies_of_onlyActive hpurged, conflicts_of_onlyActive hpurged hfound, hsuggestions,
      freedom_of_onlyActive hpurged]
    -- the two searches are the same, and so is all of their results that counts
    split <;> split <;> simp only [map_bind, map_pure, Except.map, Diagnosis.findings]

/-! ### Removing an inactive constraint -/

omit [Scalar α] in
theorem eraseP_eq_filter {constraints : List (Constraint α)}
    (hnodup : (constraints.map (·.id)).Nodup) (id : ConstraintId) :
    constraints.eraseP (·.id = id) = constraints.filter (·.id ≠ id) := by
  induction constraints with
  | nil => rfl
  | cons k rest ih =>
    rw [List.map_cons, List.nodup_cons] at hnodup
    rw [List.eraseP_cons, List.filter_cons]
    by_cases hk : k.id = id
    · have hrest : rest.filter (·.id ≠ id) = rest := by
        refine List.filter_eq_self.mpr fun other hother => decide_eq_true ?_
        rintro rfl
        exact hnodup.1 (hk ▸ List.mem_map_of_mem hother)
      rw [hrest, decide_eq_true hk, cond_true, if_neg (by simp [hk])]
    · simp [hk, ih hnodup.2]

theorem apply_removeConstraint (hs : (s.constraints.map (·.id)).Nodup) (id : ConstraintId) :
    (Operation.removeConstraint id).apply s = s.dropped id := by
  show ((s.removeConstraint? id).map (·.2)).getD s = _
  unfold removeConstraint? dropped
  rw [← eraseP_eq_filter hs]
  cases hfind : s.constraint? id with
  | some k => rfl
  | none =>
    rw [List.eraseP_of_forall_not (List.find?_eq_none.mp hfind)]
    rfl

theorem nodup_ids_solveFrom (hs : (s.constraints.map (·.id)).Nodup) (m : Minimizer α σ)
    (c : SolveConfig α) (state : σ) :
    ((s.solveFrom m c state).sketch.constraints.map (·.id)).Nodup := by
  rcases s.outline_solveFrom m c state with hsame | houtline
  · rw [hsame]
    exact hs
  · have hconstraints : (s.solveFrom m c state).sketch.constraints = s.purge.2.constraints :=
      congrArg Outline.constraints houtline
    rw [hconstraints]
    exact nodup_ids_purge hs

/-- Whether a constraint that takes no part in solving is there or not makes no difference. A solve
without it fails in the same way or has the same result, after the same calls of the minimizer, and
leaves the same sketch but for that constraint. An analysis without it fails in the same way or has
the same findings. -/
theorem inactive_invisible [NumberText α] (hs : (s.constraints.map (·.id)).Nodup)
    {k : Constraint α} (hk : k ∈ s.constraints) (hinactive : k.isActive = false)
    (m : Minimizer α σ) (state : σ) :
    let remove : Sketch α → Sketch α := (Operation.removeConstraint k.id).apply
    (∀ c : SolveConfig α,
      let solved := s.solveFrom m c state
      let other := (remove s).solveFrom m c state
      other.outcome = solved.outcome ∧ other.rounds = solved.rounds ∧
        other.sketch = remove solved.sketch) ∧
    ∀ c : DiagnosisConfig α,
      ((remove s).diagnoseFrom m c state).map Diagnosis.findings =
        (s.diagnoseFrom m c state).map Diagnosis.findings := by
  intro remove
  have hremove : remove s = s.dropped k.id := apply_removeConstraint hs k.id
  refine ⟨?_, ?_⟩
  · intro c solved other
    have hsolved : remove solved.sketch = solved.sketch.dropped k.id :=
      apply_removeConstraint (nodup_ids_solveFrom hs m c state) k.id
    rw [hsolved, show other = (s.dropped k.id).solveFrom m c state by rw [← hremove]]
    exact solveFrom_dropped hs hk hinactive m c state
  · intro c
    have hdropped : ((s.dropped k.id).constraints.map (·.id)).Nodup :=
      hs.sublist (List.filter_sublist.map _)
    have hfindings := diagnose_findings (onlyActive_dropped hs hk hinactive) hdropped hs m c
    rw [hremove]
    exact congrArg (fun found => (found.run state).1) hfindings

/-- The slanted drawing with a second constraint on its line, which only measures. -/
def measuring : Sketch Float :=
  Operation.run [.addConstraint (.vertical ⟨2⟩), .setDriving ⟨1⟩ false] slanted

theorem inactive_invisible_measuring :
    let m : Minimizer Float Unit := .answering [1.0, 0.0, 5.0]
    let removed := (Operation.removeConstraint ⟨1⟩).apply measuring
    (removed.solveFrom m .standard ()).isSuccess = true ∧
      (removed.diagnoseFrom m .standard ()).map Diagnosis.findings =
        (measuring.diagnoseFrom m .standard ()).map Diagnosis.findings := by
  intro m removed
  have hids : (measuring.constraints.map (·.id)).Nodup := by decide +kernel
  have hmember : ⟨⟨1⟩, .vertical ⟨2⟩, true, false, 1.0⟩ ∈ measuring.constraints := by
    decide +kernel
  have hsuccess : (measuring.solveFrom m .standard ()).isSuccess = true := by decide +kernel
  obtain ⟨hsolves, hfindings⟩ := inactive_invisible hids hmember rfl m ()
  refine ⟨?_, hfindings .standard⟩
  unfold Solved.isSuccess at hsuccess ⊢
  rw [(hsolves .standard).1]
  exact hsuccess

end Sketch

end PlaneSketch
