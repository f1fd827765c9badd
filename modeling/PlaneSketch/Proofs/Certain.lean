import PlaneSketch.Proofs.Conflicts
import PlaneSketch.Proofs.Measured

/-!
# Certain conflicts

Without rounding, a critical conflict is a real one: wherever the points and radii of a sketch are
put, as long as the held points stay where they are held, one of its members is violated. Each of
the three rules that find critical conflicts is shown to be sound; the other conflicts are not
critical.
-/

namespace PlaneSketch

variable {α σ : Type} [Scalar α]

open Scalar

/-- The second sketch is the first one with other numbers, and has the held points in place. -/
structure Sketch.Placement (s t : Sketch α) : Prop where
  outline : s.outline = t.outline
  pinned : ∀ pin ∈ s.pins, t.position? pin.1 = some pin.2

/-- In every placement of the sketch a member of the conflict has an error. -/
def Conflict.IsCertain (s : Sketch ℝ) (conflict : Conflict) : Prop :=
  ∀ t, s.Placement t → ∃ k ∈ s.validActive, k.id ∈ conflict.members ∧ t.errorOf k.requirement ≠ 0

namespace Conflict

variable {s : Sketch ℝ} {tolerance : ℝ} {conflict : Conflict}

theorem isCertain_of (h : ∀ t, s.Placement t →
      ¬∀ k ∈ s.validActive, k.id ∈ conflict.members → t.errorOf k.requirement = 0) :
    conflict.IsCertain s := by
  intro t ht
  have hviolated := h t ht
  push Not at hviolated
  exact hviolated

/-! ### Targets -/

theorem agrees_self (htolerance : 0 ≤ tolerance) (target : Target ℝ) :
    target.agrees tolerance target = true := by
  have hbound (x : ℝ) : 0 ≤ tolerance * larger x 1.0 := by
    rw [larger_eq_max]
    refine mul_nonneg htolerance (le_max_of_le_right ?_)
    norm_num
  cases target with
  | scalar v =>
    have hzero : Scalar.abs (v - v) = 0 := by
      show |v - v| = 0
      rw [sub_self, abs_zero]
    simp only [Target.agrees, hzero, decide_eq_true_eq]
    exact hbound _
  | position p =>
    simp only [Target.agrees, Vec.length_self_sub, decide_eq_true_eq]
    exact hbound _

theorem allAgree_of_forall_eq (htolerance : 0 ≤ tolerance) {targets : List (Target ℝ)}
    (h : ∀ a ∈ targets, ∀ b ∈ targets, a = b) : allAgree tolerance targets = true := by
  cases targets with
  | nil => rfl
  | cons first rest =>
    refine List.all_eq_true.mpr ?_
    intro target htarget
    rw [h target htarget first (List.mem_cons_self ..)]
    exact agrees_self htolerance first

/-- A quantity cannot have two measures at once. -/
theorem isCertain_of_mem_betweenTargets [NumberText ℝ] (htolerance : 0 ≤ tolerance)
    (h : conflict ∈ betweenTargets s s.validActive tolerance) : conflict.IsCertain s := by
  obtain ⟨q, hdisagree, hmembers⟩ := exists_of_mem_betweenTargets h
  refine isCertain_of ?_
  intro t ht hholds
  -- if all members hold, each of their targets is what the quantity measures
  have hmeasured : ∀ target ∈ (targeting s s.validActive q).map (·.2),
      t.measure? q = some target := by
    intro target htarget
    obtain ⟨pair, hpair, rfl⟩ := List.mem_map.mp htarget
    obtain ⟨hk, hktarget⟩ := mem_targeting_iff.mp hpair
    rw [Sketch.target?_of_outline ht.outline] at hktarget
    exact Sketch.measure?_of_errorOf_eq_zero hktarget (hholds _ hk (hmembers pair hpair))
  have hagree := allAgree_of_forall_eq htolerance
    fun a ha b hb => Option.some.inj ((hmeasured a ha).symm.trans (hmeasured b hb))
  rw [hdisagree] at hagree
  cases hagree

/-! ### Held points -/

theorem errorOf_of_holds {s t : Sketch α} (ht : s.Placement t) {r : Requirement α}
    (hstraight : r.isStraight = true) (hheld : (s.touchedPoints r).all s.pins.holds = true) :
    t.errorOf r = (s.applyPins s.pins).errorOf r := by
  have hpoints : ∀ p ∈ t.touchedPoints r, t.position? p = (s.applyPins s.pins).position? p := by
    intro p hp
    have hin : p ∈ s.touchedPoints r := by rwa [Sketch.touchedPoints_of_outline ht.outline]
    have hpin := (Sketch.Pins.holds_iff s.pins p).mp (List.all_eq_true.mp hheld p hin)
    exact (Sketch.position?_applyPins_of_outline ht.outline ht.pinned (Or.inr hpin)).symm
  have houtline : t.outline = (s.applyPins s.pins).outline :=
    ht.outline.symm.trans (s.outline_applyPins s.pins).symm
  have hcomponents := Sketch.components_of_touchedPoints houtline
    (not_mem_references_of_isStraight hstraight) hpoints
  simp only [Sketch.errorOf, hcomponents]

/-- Points that are held cannot be moved to where a constraint would hold. -/
theorem isCertain_of_mem_withHeldPoints [NumberText ℝ] {known : List Conflict}
    (htolerance : 0 ≤ tolerance)
    (h : conflict ∈ withHeldPoints s s.validActive tolerance known) : conflict.IsCertain s := by
  obtain ⟨k, hk, hmember, hstraight, hheld, herror⟩ := exists_of_mem_withHeldPoints h
  intro t ht
  refine ⟨k, hk, hmember, ?_⟩
  rw [errorOf_of_holds ht hstraight hheld]
  exact (htolerance.trans_lt (not_le.mp herror)).ne'

/-! ### Collapse -/

theorem length_ne_zero_of_mem_lengthening {s t : Sketch ℝ} (ht : s.outline = t.outline)
    {active : List (Constraint ℝ)} {line : LineId} {k : Constraint ℝ}
    (htolerance : 0 ≤ tolerance) (h : k ∈ lengthening s active tolerance line)
    (hk : t.errorOf k.requirement = 0) {segment : Segment ℝ}
    (hsegment : t.segment? line = some segment) : segment.length ≠ 0 := by
  obtain ⟨-, l, value, hl, hlong, htarget⟩ := target?_of_mem_lengthening h
  rw [Sketch.target?_of_outline ht] at htarget
  have hmeasured := Sketch.measure?_of_errorOf_eq_zero htarget hk
  rw [orderedPoints, Sketch.measure?_orderedPair t PointId.raw (fun _ _ => rfl)] at hmeasured
  obtain ⟨l', hl', hstart, hstop⟩ := Sketch.segment?_eq_some_iff.mp hsegment
  rw [← Sketch.line?_of_outline ht, hl] at hl'
  obtain rfl := Option.some.inj hl'
  have hvalue : (segment.stop - segment.start).length = value := by
    simpa [Sketch.measure?, hstart, hstop] using hmeasured
  have hlength : segment.length = value := hvalue
  rw [hlength]
  exact (htolerance.trans_lt hlong).ne'

/-- A line that is horizontal and vertical has no length. -/
theorem isCertain_of_ofCollapsedLine? {line : LineId} (htolerance : 0 ≤ tolerance)
    (h : ofCollapsedLine? s s.validActive tolerance line = some conflict)
    (hcritical : conflict.severity = .critical) : conflict.IsCertain s := by
  obtain ⟨level, hlevel, upright, hupright, ⟨hhorizontal, hlevelMember⟩,
    ⟨hvertical, huprightMember⟩, hmembers, hasked⟩ := exists_of_ofCollapsedLine? h
  obtain ⟨k, hk⟩ := List.exists_mem_of_ne_nil _ (hasked hcritical)
  refine isCertain_of ?_
  intro t ht hholds
  have hy := hholds level hlevel hlevelMember
  have hx := hholds upright hupright huprightMember
  have hlength := hholds k (target?_of_mem_lengthening hk).1 (hmembers k hk)
  rw [hhorizontal] at hy
  rw [hvertical] at hx
  obtain ⟨segment, hsegment, hy⟩ := Sketch.exists_segment_of_errorOf_eq_zero rfl hy
  obtain ⟨segment', hsegment', hx⟩ := Sketch.exists_segment_of_errorOf_eq_zero rfl hx
  obtain rfl := Option.some.inj (hsegment.symm.trans hsegment')
  exact length_ne_zero_of_mem_lengthening ht.outline htolerance hk hlength hsegment
    (Vec.length_eq_zero hx hy)

/-- Two lines are not parallel and perpendicular at once, whether they have a length or not. -/
theorem isCertain_of_mem_withPerpendicular {parallel : Constraint ℝ}
    (hactive : parallel ∈ s.validActive)
    (h : conflict ∈ withPerpendicular s s.validActive tolerance parallel) :
    conflict.IsCertain s := by
  obtain ⟨k, l, m, n, perpendicular, hactive', hpair, ⟨hparallel, hmember⟩,
    ⟨hperpendicular, hmember'⟩⟩ := exists_of_mem_withPerpendicular h
  refine isCertain_of ?_
  intro t _ hholds
  have hcross := hholds parallel hactive hmember
  have hdot := hholds perpendicular hactive' hmember'
  rw [hparallel] at hcross
  rw [hperpendicular] at hdot
  obtain ⟨a, b, ha, hb, hcross⟩ := Sketch.exists_segments_of_errorOf_eq_zero rfl hcross
  obtain ⟨c, d, hc, hd, hdot⟩ := Sketch.exists_segments_of_errorOf_eq_zero rfl hdot
  -- both directions are unit vectors, also those of lines without a length
  have hne : a.direction.dot b.direction ≠ 0 :=
    (Vec.direction_cross_ne_zero_or a.vector b.vector).resolve_left (not_not_intro hcross)
  rcases eq_or_swap_of_orderedPair hpair with ⟨rfl, rfl⟩ | ⟨rfl, rfl⟩
  · obtain rfl := Option.some.inj (ha.symm.trans hc)
    obtain rfl := Option.some.inj (hb.symm.trans hd)
    exact hne hdot
  · obtain rfl := Option.some.inj (ha.symm.trans hd)
    obtain rfl := Option.some.inj (hb.symm.trans hc)
    rw [Vec.dot_comm] at hne
    exact hne hdot

theorem isCertain_of_mem_byCollapse (htolerance : 0 ≤ tolerance)
    (h : conflict ∈ byCollapse s s.validActive tolerance)
    (hcritical : conflict.severity = .critical) : conflict.IsCertain s := by
  rcases List.mem_append.mp h with hline | hlines
  · obtain ⟨line, -, hfound⟩ := List.mem_filterMap.mp hline
    exact isCertain_of_ofCollapsedLine? htolerance hfound hcritical
  · obtain ⟨k, hk, hfound⟩ := List.mem_flatMap.mp hlines
    exact isCertain_of_mem_withPerpendicular hk hfound

end Conflict

namespace Sketch

theorem isCertain_of_mem_ruleConflicts [NumberText ℝ] {s : Sketch ℝ} {c : DiagnosisConfig ℝ}
    (hredundancy : 0 ≤ c.redundancyTolerance) (herror : 0 ≤ c.solver.maxErrorTolerance)
    {conflict : Conflict} (h : conflict ∈ s.ruleConflicts c)
    (hcritical : conflict.severity = .critical) : conflict.IsCertain s := by
  rcases ruleConflicts_cases h with htargets | ⟨known, hheld⟩ | hcollapse | haxes
  · exact Conflict.isCertain_of_mem_betweenTargets hredundancy htargets
  · exact Conflict.isCertain_of_mem_withHeldPoints herror hheld
  · exact Conflict.isCertain_of_mem_byCollapse hredundancy hcollapse hcritical
  · rw [(Conflict.of_mem_ofAxes haxes).1] at hcritical
    cases hcritical

/-- Without rounding, every critical conflict is certain: no placement of the sketch meets all its
members. So a sketch whose valid active constraints can all be met has no critical conflict. -/
theorem conflicts_certain [NumberText ℝ] (s : Sketch ℝ) (m : Minimizer ℝ σ)
    {c : DiagnosisConfig ℝ} (hredundancy : 0 ≤ c.redundancyTolerance)
    (herror : 0 ≤ c.solver.maxErrorTolerance) (numeric : Bool) (state : σ) :
    let found := ((s.conflicts m c numeric).run state).1
    (∀ conflict ∈ found, conflict.severity = .critical → conflict.IsCertain s) ∧
    ((∃ t, s.Placement t ∧ ∀ k ∈ s.validActive, t.errorOf k.requirement = 0) →
      ∀ conflict ∈ found, conflict.severity ≠ .critical) := by
  intro found
  have hcertain : ∀ conflict ∈ found, conflict.severity = .critical → conflict.IsCertain s := by
    intro conflict hconflict hcritical
    exact isCertain_of_mem_ruleConflicts hredundancy herror
      (mem_ruleConflicts_of_critical hconflict hcritical) hcritical
  refine ⟨hcertain, ?_⟩
  rintro ⟨t, ht, hmet⟩ conflict hconflict hcritical
  obtain ⟨k, hk, -, hviolated⟩ := hcertain conflict hconflict hcritical t ht
  exact hviolated (hmet k hk)

/-- A circle with two constraints: its radius is one, and its diameter is four. -/
noncomputable def twoRadii : Sketch ℝ :=
  let s := ((empty "two radii").addPoint ⟨0, 0⟩).2.push fun raw => .circle ⟨⟨raw⟩, ⟨0⟩, 1, false⟩
  let s := (s.addConstraint (.radius (.circle ⟨1⟩) 1)).2
  (s.addConstraint (.diameter (.circle ⟨1⟩) 4)).2

theorem validActive_twoRadii : twoRadii.validActive = twoRadii.constraints := by
  have hcircle : twoRadii.contains (.circle ⟨1⟩) = true := rfl
  have hweight : ¬(1.0 : ℝ) ≤ 0.0 := by norm_num
  have hone : ¬(1 : ℝ) ≤ 0.0 := by norm_num
  have hfour : ¬(4 : ℝ) ≤ 0.0 := by norm_num
  refine List.filter_eq_self.mpr (List.forall_mem_cons.mpr ⟨?_, List.forall_mem_singleton.mpr ?_⟩)
  all_goals
    simp [Constraint.isActive, Constraint.isValid, Constraint.defect?, Requirement.references,
      CurveId.toRef, hcircle, Requirement.positionDefect?, Requirement.value?,
      Requirement.valueDefect?, Requirement.repeatsEntity, hweight, hone, hfour, Scalar.isFinite]

theorem exists_critical_twoRadii [NumberText ℝ] :
    ∃ conflict ∈ twoRadii.ruleConflicts .standard, conflict.severity = .critical := by
  let q : Quantity := .radius (.circle ⟨1⟩)
  have hquantities : Conflict.targetedQuantities twoRadii twoRadii.validActive = [q] := by
    rw [validActive_twoRadii]
    rfl
  have hids : (Conflict.targeting twoRadii twoRadii.validActive q).map (·.1.id) =
      [⟨0⟩, ⟨1⟩] := by
    rw [validActive_twoRadii]
    rfl
  have hvalues : (Conflict.targeting twoRadii twoRadii.validActive q).map (·.2) =
      [.scalar 1, .scalar (4 / 2.0)] := by
    rw [validActive_twoRadii]
    rfl
  have hdisagree : Conflict.allAgree (1e-6 : ℝ) [.scalar 1, .scalar (4 / 2.0)] = false := by
    simp only [Conflict.allAgree, List.all_cons, Target.agrees, larger_eq_max]
    simp [Scalar.abs]
    norm_num
  obtain ⟨conflict, hconflict, hcritical⟩ : ∃ conflict,
      Conflict.ofQuantity? twoRadii twoRadii.validActive 1e-6 q = some conflict ∧
        conflict.severity = .critical := by
    unfold Conflict.ofQuantity?
    dsimp only
    rw [hvalues, if_neg (Bool.not_eq_true _ ▸ hdisagree), hids]
    exact ⟨_, rfl, rfl⟩
  have htargets : Conflict.betweenTargets twoRadii twoRadii.validActive 1e-6 = [conflict] := by
    unfold Conflict.betweenTargets
    rw [hquantities, List.filterMap_cons_some hconflict]
    rfl
  have hkept : conflict ∈ (Conflict.betweenTargets twoRadii twoRadii.validActive 1e-6).foldl
      Conflict.keep [] := by
    rw [htargets]
    exact List.mem_singleton_self conflict
  refine ⟨conflict, ?_, hcritical⟩
  exact Conflict.mem_foldl_keep_of_mem _
    (Conflict.mem_foldl_keep_of_mem _ (Conflict.mem_foldl_keep_of_mem _ hkept))

/-- Numbers written as their whole parts. -/
noncomputable instance : NumberText ℝ where
  shortest v := toString ⌊v⌋
  fixed _ v := toString ⌊v⌋
  scientific _ v := toString ⌊v⌋

theorem conflicts_certain_twoRadii :
    ∃ conflict ∈ ((twoRadii.conflicts .null .standard false).run ()).1,
      conflict.severity = .critical ∧ twoRadii.Placement twoRadii ∧
      ∀ t, twoRadii.Placement t → ¬∀ k ∈ twoRadii.validActive, t.errorOf k.requirement = 0 := by
  obtain ⟨conflict, hconflict, hcritical⟩ := exists_critical_twoRadii
  have hfound : conflict ∈ ((twoRadii.conflicts .null .standard false).run ()).1 :=
    List.mem_mergeSort.mpr hconflict
  refine ⟨conflict, hfound, hcritical, ⟨rfl, nofun⟩, ?_⟩
  intro t ht hmet
  have hredundancy : (0 : ℝ) ≤ 1e-6 := by norm_num
  have herror : (0 : ℝ) ≤ 1e-2 := by norm_num
  obtain ⟨k, hk, -, hviolated⟩ :=
    (conflicts_certain twoRadii .null hredundancy herror false ()).1 conflict hfound hcritical t ht
  exact hviolated (hmet k hk)

end Sketch

end PlaneSketch
