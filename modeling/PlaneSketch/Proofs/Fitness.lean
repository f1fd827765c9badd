import PlaneSketch.Proofs.Exact
import PlaneSketch.Proofs.Headroom
import PlaneSketch.Proofs.Signs

/-!
# Suggestions as constraints

A suggestion names drawn entities, each once, and asks for what it measures there. So the
constraint that it makes fits the drawing unless the measured number is no number to ask for. Over
the reals that takes a radius that is not positive. In binary64 the length of a line or the angle
between two can also overflow although all coordinates are finite, and what a minimizer leaves need
not be finite at all.
-/

namespace PlaneSketch

open Scalar

/-- Carriers with a positive unit, over which no square root is negative. -/
class RootedScalar (α : Type) [Scalar α] : Prop where
  isFinite_one : isFinite (1.0 : α) = true
  not_one_le_zero : ¬(1.0 : α) ≤ 0.0
  not_sqrt_lt_zero (a : α) : ¬sqrt a < 0.0

instance : RootedScalar Float where
  isFinite_one := by decide
  not_one_le_zero := by decide
  not_sqrt_lt_zero := Binary64.not_sqrt_lt_zero

instance : RootedScalar ℝ where
  isFinite_one := rfl
  not_one_le_zero := by norm_num
  not_sqrt_lt_zero a := by
    rw [not_lt]
    norm_num
    exact Real.sqrt_nonneg a

variable {α σ : Type}

/-! ### Numbers behind what is measured -/

namespace Sketch

variable {s : Sketch α}

theorem exists_numbers_of_position? {id : PointId} {position : Vec α}
    (h : s.position? id = some position) : ∃ place, s.number? (.pointX place) = some position.x ∧
      s.number? (.pointY place) = some position.y := by
  obtain ⟨p, hp, rfl⟩ := Option.map_eq_some_iff.mp h
  obtain ⟨place, -, he⟩ := Option.bind_eq_some_iff.mp (s.point?_eq_some_iff_entity?.mp hp)
  exact ⟨place, Option.bind_eq_some_iff.mpr ⟨_, he, rfl⟩, Option.bind_eq_some_iff.mpr ⟨_, he, rfl⟩⟩

theorem exists_number_of_radius? {c : CurveId} {v : α} (h : s.radius? c = some v) :
    ∃ slot : Slot, slot.isRadius = true ∧ s.number? slot = some v := by
  rw [radius?_eq_bind] at h
  obtain ⟨e, hentity, hradius⟩ := Option.bind_eq_some_iff.mp h
  obtain ⟨place, -, he⟩ := Option.bind_eq_some_iff.mp hentity
  cases c <;> cases e <;> cases hradius
  · exact ⟨.circleRadius place, rfl, Option.bind_eq_some_iff.mpr ⟨_, he, rfl⟩⟩
  · exact ⟨.arcRadius place, rfl, Option.bind_eq_some_iff.mpr ⟨_, he, rfl⟩⟩

end Sketch

variable [Scalar α]

/-- Over the reals the angle between two directions is at most half a turn. -/
theorem Vec.angleBetween_mem_range (a b : Vec ℝ) :
    0.0 ≤ a.angleBetween b ∧ a.angleBetween b ≤ 180.0 := by
  have hsign : 0 ≤ (⟨a.dot b, |a.cross b|⟩ : ℂ).arg := Complex.arg_nonneg_iff.mpr (abs_nonneg _)
  have hturn : (⟨a.dot b, |a.cross b|⟩ : ℂ).arg ≤ Real.pi := Complex.arg_le_pi _
  have hscale : 0 ≤ 180 / Real.pi := by positivity
  have hdegrees : a.angleBetween b = (⟨a.dot b, |a.cross b|⟩ : ℂ).arg * (180 / Real.pi) := rfl
  rw [hdegrees]
  constructor
  · norm_num
    exact mul_nonneg hsign hscale
  · calc _ ≤ Real.pi * (180 / Real.pi) := mul_le_mul_of_nonneg_right hturn hscale
      _ = 180.0 := by rw [mul_div_cancel₀ _ Real.pi_ne_zero]; norm_num

/-! ### What is measured -/

/-- Whether the numbers that a rule measures can be asked for; a measured length is never
negative. -/
def Requirement.IsInRange : Requirement α → Prop
  | .fixed _ position => position.isFinite = true
  | .length _ v => isFinite v = true
  | .radius _ v => isFinite v = true ∧ ¬v ≤ 0.0
  | .angle _ _ v => isFinite v = true ∧ 0.0 ≤ v ∧ v ≤ 180.0
  | _ => True

namespace Sketch

/-- Whether the requirement asks for what the sketch measures. -/
def Measures (s : Sketch α) : Requirement α → Prop
  | .fixed p position => s.position? p = some position
  | .length l v => ∃ segment, s.segment? l = some segment ∧ segment.length = v
  | .radius c v => s.radius? c = some v
  | .angle k l v => ∃ first second, s.segment? k = some first ∧ s.segment? l = some second ∧
      first.direction.angleBetween second.direction = v
  | _ => True

variable {s t : Sketch α} {r : Requirement α}

theorem WellFormed.measures_of_proposes (hs : s.WellFormed) {auto : Bool} (h : s.Proposes r auto) :
    s.Measures r := by
  cases h with
  | anchor held point drawn => exact hs.position?_eq_some_iff.mpr ⟨_, point, rfl, rfl⟩
  | horizontal | vertical => trivial
  | length drawn measured => exact ⟨_, measured, rfl⟩
  | radius drawn =>
    rcases mem_drawnCurves drawn with ⟨c, hc, -, rfl, rfl⟩ | ⟨a, ha, -, rfl, rfl⟩
    · have hfound : s.entity? c.id.raw = some (.circle c) :=
        hs.entity?_eq_some_iff.mpr ⟨hc, rfl⟩
      simp only [Measures, radius?, circle?, hfound, Option.map_some]
    · have hfound : s.entity? a.id.raw = some (.arc a) := hs.entity?_eq_some_iff.mpr ⟨ha, rfl⟩
      simp only [Measures, radius?, arc?, hfound, Option.map_some]
  | angle drawn measured₁ measured₂ => exact ⟨_, _, measured₁, measured₂, rfl⟩

/-- Only lengths and angles can be out of range where all numbers are finite and all radii
positive. -/
theorem Measures.isInRange_of_checks [OrderedScalar α] (h : s.Measures r)
    (hnumbers : s.checkNumbers = .ok ()) (hradii : s.RadiiPositive)
    (hlength : ∀ l v, r ≠ .length l v) (hangle : ∀ k l v, r ≠ .angle k l v) : r.IsInRange := by
  have hfinite := s.checkNumbers_eq_ok_iff.mp hnumbers
  cases r with
  | fixed p position =>
    obtain ⟨place, hx, hy⟩ := exists_numbers_of_position? h
    exact Bool.and_eq_true_iff.mpr ⟨hfinite _ _ hx, hfinite _ _ hy⟩
  | length l v => exact absurd rfl (hlength l v)
  | angle k l v => exact absurd rfl (hangle k l v)
  | radius c v =>
    obtain ⟨slot, hslot, hv⟩ := exists_number_of_radius? h
    have hpositive := s.radiiPositive_iff.mp hradii slot v hslot hv
    exact ⟨hfinite slot v hv, ((OrderedScalar.lt_iff _ _).mp hpositive).2⟩
  | _ => trivial

/-- Over the reals what is measured can be asked for, if all radii are positive. -/
theorem Measures.isInRange {s : Sketch ℝ} {r : Requirement ℝ} (h : s.Measures r)
    (hradii : s.RadiiPositive) : r.IsInRange := by
  cases r with
  | fixed | length => rfl
  | radius c v =>
    obtain ⟨slot, hslot, hv⟩ := exists_number_of_radius? h
    have hpositive := s.radiiPositive_iff.mp hradii slot v hslot hv
    exact ⟨rfl, not_le.mpr hpositive⟩
  | angle k l v =>
    obtain ⟨first, second, -, -, rfl⟩ := h
    exact ⟨rfl, Vec.angleBetween_mem_range ..⟩
  | _ => trivial

/-! ### Validity -/

variable [RootedScalar α]

theorem defect?_nextConstraintOf (hfound : ∀ ref ∈ r.references, t.contains ref = true)
    (hrepeats : r.repeatsEntity = false) :
    (s.nextConstraintOf r).defect? t = none ↔
      r.positionDefect? = none ∧ r.value?.bind r.valueDefect? = none := by
  have hresolved : r.references.find? (!t.contains ·) = none := by
    refine List.find?_eq_none.mpr fun ref href => ?_
    rw [hfound ref href]
    exact nofun
  unfold Constraint.defect? nextConstraintOf
  rw [if_neg (by simp [RootedScalar.isFinite_one, RootedScalar.not_one_le_zero])]
  simp only [hresolved, hrepeats, Bool.false_eq_true, if_false, Option.orElse_eq_orElse,
    Option.orElse_eq_or, Option.or_eq_none_iff, and_true]

/-- A proposal that resolves is valid exactly when its number is in range. -/
theorem Proposes.defects_eq_none_iff {auto : Bool} (h : s.Proposes r auto) :
    r.positionDefect? = none ∧ r.value?.bind r.valueDefect? = none ↔ r.IsInRange := by
  cases h with
  | anchor => simp [Requirement.positionDefect?, Requirement.value?, Requirement.IsInRange]
  | horizontal | vertical => exact iff_of_true ⟨rfl, rfl⟩ trivial
  | @length line segment =>
    have hsign : ¬segment.length < 0.0 := RootedScalar.not_sqrt_lt_zero _
    simp [Requirement.positionDefect?, Requirement.value?, Requirement.valueDefect?,
      Requirement.IsInRange, hsign]
  | @radius curve v =>
    cases hfinite : isFinite v <;>
      simp [Requirement.positionDefect?, Requirement.value?, Requirement.valueDefect?,
        Requirement.IsInRange, hfinite]
  | @angle _ _ first second =>
    cases hfinite : isFinite (first.direction.angleBetween second.direction) <;>
      simp [Requirement.positionDefect?, Requirement.value?, Requirement.valueDefect?,
        Requirement.IsInRange, hfinite]

/-- Adding what is suggested makes a constraint that names entities of the sketch, none of them
twice, and asks for what the examined state measures. It is valid exactly when that number is in
range; where that state has finite numbers and positive radii, only lengths and angles can fail. -/
theorem isValid_suggestion_iff [OrderedScalar α] [NumberText α] (hs : s.WellFormed)
    {m : Minimizer α σ} {c : DiagnosisConfig α} {state : σ} {d : Diagnosis α}
    (h : s.diagnoseFrom m c state = .ok d) {suggestion : Suggestion α}
    (hsuggestion : suggestion ∈ d.suggestions) :
    let applied := s.applySuggestion suggestion
    let examined := ((s.purge.2.examine m c.solver).run state).1.state
    ∃ k, applied.2.constraint? applied.1 = some k ∧ k.requirement = suggestion.proposed ∧
      (∀ ref ∈ suggestion.targets, applied.2.contains ref = true) ∧
      suggestion.proposed.repeatsEntity = false ∧
      examined.Measures suggestion.proposed ∧
      (k.isValid applied.2 = true ↔ suggestion.proposed.IsInRange) ∧
      (examined.checkNumbers = .ok () → examined.RadiiPositive →
        (∀ l v, suggestion.proposed ≠ .length l v) →
        (∀ k l v, suggestion.proposed ≠ .angle k l v) → k.isValid applied.2 = true) := by
  intro applied examined
  obtain ⟨hexamined, -, hproposed, hfound⟩ := hs.proposes_of_mem_diagnosis h hsuggestion
  have hmeasures := hexamined.measures_of_proposes hproposed
  have hrepeats := hproposed.repeatsEntity hexamined
  have hvalid : (s.nextConstraintOf suggestion.proposed).isValid applied.2 = true ↔
      suggestion.proposed.IsInRange := by
    have hnamed : ∀ ref ∈ suggestion.proposed.references, applied.2.contains ref = true := hfound
    rw [Constraint.isValid, Option.isNone_iff_eq_none, defect?_nextConstraintOf hnamed hrepeats]
    exact hproposed.defects_eq_none_iff
  refine ⟨s.nextConstraintOf suggestion.proposed, ?_, rfl, hfound, hrepeats, hmeasures, hvalid, ?_⟩
  · have hin : s.nextConstraintOf suggestion.proposed ∈ applied.2.constraints :=
      List.mem_append_right _ (List.mem_singleton_self _)
    exact (hs.addConstraint suggestion.proposed).constraint?_of_mem hin
  · intro hnumbers hradii hlength hangle
    exact hvalid.mpr (hmeasures.isInRange_of_checks hnumbers hradii hlength hangle)

open Operation

theorem isValid_suggestion_adrift :
    ∃ d, adrift.diagnoseFrom (.null : Minimizer Float Unit) .standard () = .ok d ∧
      ∃ suggestion ∈ d.suggestions, suggestion.proposed = .radius (.circle ⟨1⟩) 3.0 ∧
        ∃ k, (adrift.applySuggestion suggestion).2.constraint? ⟨0⟩ = some k ∧
          k.isValid (adrift.applySuggestion suggestion).2 = true := by
  have hs : adrift.WellFormed := wellFormed_run_empty _ "adrift"
  obtain ⟨d, hd, hstatus, -⟩ := exists_diagnosis_adrift
  obtain ⟨suggestion, hin, hproposed⟩ := exists_mem_suggestions_diagnoseFrom hd hstatus
    (p := fun suggestion => suggestion.proposed = .radius (.circle ⟨1⟩) 3.0) (by decide +kernel)
  obtain ⟨k, hk, -, -, -, -, hvalid, -⟩ := isValid_suggestion_iff hs hd hin
  refine ⟨d, hd, suggestion, hin, hproposed, k, hk, hvalid.mpr ?_⟩
  rw [hproposed]
  exact ⟨by decide +kernel, by decide +kernel⟩

/-- A level line so long that the square of its length is no number. -/
def farApart : Sketch Float :=
  run [.addFixedPoint ⟨0.0, 0.0⟩, .addPoint ⟨1e200, 0.0⟩, .addLine ⟨0⟩ ⟨1⟩,
    .addConstraint (.horizontal ⟨2⟩)] (empty "far")

theorem exists_suggestion_not_valid :
    ∃ d, farApart.diagnoseFrom (.answering [1e200, 0.0]) .standard () = .ok d ∧
      d.status = .underConstrained ∧
      ∃ suggestion ∈ d.suggestions, ∃ k,
        (farApart.applySuggestion suggestion).2.constraint?
          (farApart.applySuggestion suggestion).1 = some k ∧
        k.isValid (farApart.applySuggestion suggestion).2 = false := by
  have hok : (farApart.diagnoseFrom (.answering [1e200, 0.0]) .standard ()).toOption.map
      (·.status) = some .underConstrained := by
    decide +kernel
  obtain ⟨d, hd, hstatus⟩ := Option.map_eq_some_iff.mp hok
  have hd := ok_of_toOption hd
  obtain ⟨suggestion, hin, hinvalid⟩ := exists_mem_suggestions_diagnoseFrom hd hstatus
    (p := fun suggestion => ((farApart.applySuggestion suggestion).2.constraint?
      (farApart.applySuggestion suggestion).1).any
        (fun k => !k.isValid (farApart.applySuggestion suggestion).2) = true)
    (by decide +kernel)
  obtain ⟨k, hk, hinvalid⟩ := (Option.any_eq_true _ _).mp hinvalid
  exact ⟨d, hd, hstatus, suggestion, hin, k, hk, by simpa using hinvalid⟩

end Sketch

end PlaneSketch
