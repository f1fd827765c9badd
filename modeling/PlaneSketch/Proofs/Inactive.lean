import PlaneSketch.Proofs.Agreement
import PlaneSketch.Proofs.Alike

/-!
# Inactive constraints

A constraint that is disabled or does not drive is kept, shown and purged like any other, but no
solve and no analysis looks at it. All that they look at is in the sketch with its active
constraints only, so sketches that have this one in common cannot be told apart.
-/

namespace PlaneSketch

variable {α σ : Type}

namespace Sketch

/-- The sketch with its active constraints only. -/
def onlyActive (s : Sketch α) : Sketch α := { s with constraints := s.active }

variable (s : Sketch α)

theorem active_onlyActive : s.onlyActive.active = s.active := by
  show (s.constraints.filter (·.isActive)).filter (·.isActive) = s.constraints.filter (·.isActive)
  rw [List.filter_filter]
  simp only [Bool.and_self]

/-! ### Variables and counts -/

theorem isLive_onlyActive : s.onlyActive.isLive = s.isLive := by
  funext e
  simp only [isLive, isConstrained, active_onlyActive]

theorem carriesCurve_onlyActive : s.onlyActive.carriesCurve = s.carriesCurve := by
  funext id
  unfold carriesCurve
  rw [isLive_onlyActive]
  rfl

/-- Only active constraints hold points. -/
theorem filterMap_heldBy?_active :
    s.active.filterMap s.heldBy? = s.constraints.filterMap s.heldBy? := by
  unfold active
  rw [List.filterMap_filter]
  refine List.filterMap_congr ?_
  intro k _
  cases hk : k.isActive with
  | true => rfl
  | false =>
    unfold heldBy?
    simp only [hk, Bool.false_and, Bool.false_eq_true, if_false]
    split <;> rfl

theorem pins_onlyActive : s.onlyActive.pins = s.pins := by
  unfold pins
  rw [← s.filterMap_heldBy?_active]
  rfl

theorem slots_onlyActive : s.onlyActive.slots = s.slots := by
  have hpoints : s.onlyActive.pointSlots = s.pointSlots := by
    funext pins pair
    unfold pointSlots
    rw [isLive_onlyActive, carriesCurve_onlyActive]
  have hcircles : s.onlyActive.circleSlots = s.circleSlots := by
    funext pair
    unfold circleSlots
    rw [isLive_onlyActive]
  have harcs : s.onlyActive.arcSlots = s.arcSlots := by
    funext pair
    unfold arcSlots
    rw [isLive_onlyActive]
  unfold slots
  rw [hpoints, hcircles, harcs, pins_onlyActive]
  rfl

theorem filter_takesFreedom_active :
    s.active.filter (·.takesFreedom) = s.constraints.filter (·.takesFreedom) := by
  unfold active
  rw [List.filter_filter]
  refine List.filter_congr ?_
  intro k _
  simp only [Constraint.takesFreedom, Bool.and_right_comm, Bool.and_self]

theorem freedom_onlyActive [Scalar α] : s.onlyActive.freedom = s.freedom := by
  unfold freedom freedomWith
  rw [slots_onlyActive, active_onlyActive, ← s.filter_takesFreedom_active]
  rfl

theorem isIdle_onlyActive : s.onlyActive.isIdle = s.isIdle := by
  rw [Bool.eq_iff_iff, isIdle_eq_true_iff, isIdle_eq_true_iff, slots_onlyActive, active_onlyActive]

/-! ### Placing and writing -/

theorem applyPins_onlyActive (pins : Pins α) :
    s.onlyActive.applyPins pins = (s.applyPins pins).onlyActive := by
  induction pins generalizing s with
  | nil => rfl
  | cons pin rest ih =>
    have hplace : s.onlyActive.place pin.1 pin.2 = (s.place pin.1 pin.2).onlyActive := by
      have hpoint : s.onlyActive.point? pin.1 = s.point? pin.1 := rfl
      unfold place
      rw [hpoint]
      cases s.point? pin.1 with
      | none => rfl
      | some p =>
        have hindex : s.onlyActive.index = s.index := rfl
        show s.onlyActive.modifyEntity _ _ = (s.modifyEntity _ _).onlyActive
        unfold modifyEntity
        rw [hindex]
        cases s.index[pin.1.raw]? <;> rfl
    show (s.onlyActive.place pin.1 pin.2).applyPins rest = _
    rw [hplace, ih]
    rfl

theorem pinned_onlyActive : s.onlyActive.pinned = s.pinned.onlyActive := by
  unfold pinned
  rw [pins_onlyActive, applyPins_onlyActive]

theorem finished_onlyActive (rounds : List (Round α)) :
    s.onlyActive.finished rounds = (s.finished rounds).onlyActive := by
  unfold finished
  rw [slots_onlyActive]
  cases rounds.getLast? <;> rfl

theorem purge_onlyActive : s.onlyActive.purge.2 = s.purge.2.onlyActive := by
  rw [purge_eq_filter, purge_eq_filter]
  unfold onlyActive active
  dsimp only
  rw [List.filter_filter, List.filter_filter]
  refine congrArg (fun constraints => { s with constraints := constraints }) ?_
  exact List.filter_congr fun k _ => Bool.and_comm _ _

/-! ### Sketches with the same active constraints -/

variable {s} {t : Sketch α}

theorem slots_of_onlyActive (h : s.onlyActive = t.onlyActive) : s.slots = t.slots := by
  rw [← slots_onlyActive, h, slots_onlyActive]

theorem purge_of_onlyActive (h : s.onlyActive = t.onlyActive) :
    s.purge.2.onlyActive = t.purge.2.onlyActive := by
  rw [← purge_onlyActive, h, purge_onlyActive]

theorem pinned_of_onlyActive (h : s.onlyActive = t.onlyActive) :
    s.pinned.onlyActive = t.pinned.onlyActive := by
  rw [← pinned_onlyActive, h, pinned_onlyActive]

theorem finished_of_onlyActive (h : s.onlyActive = t.onlyActive) (rounds : List (Round α)) :
    (s.pinned.finished rounds).onlyActive = (t.pinned.finished rounds).onlyActive := by
  rw [← finished_onlyActive, pinned_of_onlyActive h, finished_onlyActive]

variable [Scalar α]

theorem freedom_of_onlyActive (h : s.onlyActive = t.onlyActive) : s.freedom = t.freedom := by
  rw [← freedom_onlyActive, h, freedom_onlyActive]

theorem triedAlike_of_onlyActive (h : s.onlyActive = t.onlyActive) : s.TriedAlike t where
  freedom := freedom_of_onlyActive h
  idle := by rw [← isIdle_onlyActive, h, isIdle_onlyActive]
  objective c := by
    have hpinned := pinned_of_onlyActive h
    have hslots : s.pinned.slots = t.pinned.slots := slots_of_onlyActive hpinned
    refine ⟨hslots, congrArg Sketch.constraints hpinned, rfl, ?_, ?_⟩
    · show s.pinned.valuesAt s.pinned.slots = t.pinned.valuesAt t.pinned.slots
      rw [hslots]
      exact congrArg (·.valuesAt t.pinned.slots) hpinned
    · intro x k _
      show (s.pinned.withValuesAt s.pinned.slots x).components _ =
        (t.pinned.withValuesAt t.pinned.slots x).components _
      rw [hslots]
      exact congrArg (fun u => (u.withValuesAt t.pinned.slots x).components k.requirement) hpinned

omit [Scalar α] in
theorem nodup_ids_purge (hs : (s.constraints.map (·.id)).Nodup) :
    (s.purge.2.constraints.map (·.id)).Nodup := by
  rw [purge_eq_filter]
  exact hs.sublist (List.filter_sublist.map _)

/-- With distinct ids, the invalid constraints that stand in the way of a solve are the active ones
with a defect. -/
theorem invalidActive_eq_filterMap (hs : (s.constraints.map (·.id)).Nodup) :
    s.invalidActive = s.active.filterMap fun k => (k.defect? s).map (k.id, ·) := by
  unfold invalidActive invalidConstraints active
  rw [List.filter_filterMap, List.filterMap_filter]
  refine List.filterMap_congr ?_
  intro k hk
  have hfound := constraint?_of_mem_of_nodup hs hk
  cases henabled : k.enabled <;> cases hdriving : k.driving <;> cases k.defect? s <;>
    simp [Constraint.isActive, henabled, hdriving, hfound]

theorem invalidActive_of_onlyActive (h : s.onlyActive = t.onlyActive)
    (hs : (s.constraints.map (·.id)).Nodup) (ht : (t.constraints.map (·.id)).Nodup) :
    s.invalidActive = t.invalidActive := by
  rw [invalidActive_eq_filterMap hs, invalidActive_eq_filterMap ht]
  exact congrArg (fun u => u.constraints.filterMap fun k => (k.defect? u).map (k.id, ·)) h

theorem obstacle?_of_onlyActive (h : s.onlyActive = t.onlyActive)
    (hs : (s.constraints.map (·.id)).Nodup) (ht : (t.constraints.map (·.id)).Nodup) :
    s.obstacle? = t.obstacle? := by
  unfold obstacle?
  rw [invalidActive_of_onlyActive h hs ht, freedom_of_onlyActive h]

/-! ### Leaving a constraint out -/

/-- The sketch without the constraint of an id. -/
def dropped (s : Sketch α) (id : ConstraintId) : Sketch α :=
  { s with constraints := s.constraints.filter (·.id ≠ id) }

omit [Scalar α] in
theorem onlyActive_dropped (hs : (s.constraints.map (·.id)).Nodup) {k : Constraint α}
    (hk : k ∈ s.constraints) (hinactive : k.isActive = false) :
    (s.dropped k.id).onlyActive = s.onlyActive := by
  have hactive : (s.dropped k.id).active = s.active := by
    show (s.constraints.filter (·.id ≠ k.id)).filter (·.isActive) = _
    rw [List.filter_filter]
    refine List.filter_congr ?_
    intro other hother
    by_cases hid : other.id = k.id
    · obtain rfl := List.inj_on_of_nodup_map hs hother hk hid
      simp [hinactive]
    · simp [hid]
  show { s with constraints := (s.dropped k.id).active } = s.onlyActive
  rw [hactive]
  rfl

omit [Scalar α] in
theorem purge_dropped (id : ConstraintId) : (s.dropped id).purge.2 = s.purge.2.dropped id := by
  rw [purge_eq_filter, purge_eq_filter]
  unfold dropped
  dsimp only
  rw [List.filter_filter, List.filter_filter]
  refine congrArg (fun constraints => { s with constraints := constraints }) ?_
  exact List.filter_congr fun k _ => Bool.and_comm _ _

omit [Scalar α] in
theorem finished_dropped {id : ConstraintId} (h : (s.dropped id).onlyActive = s.onlyActive)
    (rounds : List (Round α)) :
    (s.pinned.finished rounds).dropped id = (s.dropped id).pinned.finished rounds := by
  have houtline (u : Sketch α) : (u.pinned.finished rounds).outline = u.outline :=
    (u.pinned.outline_finished rounds).trans u.outline_pinned
  have hentities : (s.pinned.finished rounds).entities =
      ((s.dropped id).pinned.finished rounds).entities :=
    (congrArg Sketch.entities (finished_of_onlyActive h rounds)).symm
  apply eq_of_outline
  · rw [houtline]
    exact congrArg (fun o : Outline α => { o with constraints := o.constraints.filter (·.id ≠ id) })
      (houtline s)
  · intro slot
    exact congrArg slot.readIn? hentities

/-- A solve does not see an inactive constraint. -/
theorem solveFrom_dropped (hs : (s.constraints.map (·.id)).Nodup) {k : Constraint α}
    (hk : k ∈ s.constraints) (hinactive : k.isActive = false) (m : Minimizer α σ)
    (c : SolveConfig α) (state : σ) :
    let solved := s.solveFrom m c state
    let other := (s.dropped k.id).solveFrom m c state
    other.outcome = solved.outcome ∧ other.rounds = solved.rounds ∧
      other.sketch = solved.sketch.dropped k.id := by
  intro solved other
  have hdropped : (s.dropped k.id).onlyActive = s.onlyActive := onlyActive_dropped hs hk hinactive
  have hpurged : (s.dropped k.id).purge.2.onlyActive = s.purge.2.onlyActive :=
    purge_of_onlyActive hdropped
  have hobstacle : (s.dropped k.id).purge.2.obstacle? = s.purge.2.obstacle? :=
    obstacle?_of_onlyActive hpurged (nodup_ids_purge (hs.sublist (List.filter_sublist.map _)))
      (nodup_ids_purge hs)
  obtain ⟨houtcome, hrounds⟩ : other.outcome = solved.outcome ∧ other.rounds = solved.rounds :=
    (triedAlike_of_onlyActive hpurged).solveFrom_eq rfl hobstacle m c state
  refine ⟨houtcome, hrounds, ?_⟩
  cases hresult : solved.outcome with
  | error fault =>
    rw [show solved.sketch = s from solve_fault_sketch hresult]
    exact solve_fault_sketch (houtcome.trans hresult)
  | ok r =>
    cases hr : r.isSuccess with
    | false =>
      rw [show solved.sketch = s.purge.2 from solve_failure_sketch hresult hr, ← purge_dropped]
      exact solve_failure_sketch (houtcome.trans hresult) hr
    | true =>
      have hsolved : solved.sketch = s.purge.2.pinned.finished solved.rounds :=
        (solve_success hresult hr).sketch
      have hother : other.sketch = (s.dropped k.id).purge.2.pinned.finished other.rounds :=
        (solve_success (houtcome.trans hresult) hr).sketch
      rw [purge_dropped] at hpurged hother
      rw [hother, hsolved, hrounds, finished_dropped hpurged]

end Sketch

end PlaneSketch
