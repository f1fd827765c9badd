import Mathlib.Analysis.InnerProductSpace.PiL2
import PlaneSketch.Proofs.Exact
import PlaneSketch.Proofs.Locating
import PlaneSketch.Residual.InPlace

/-!
# All residuals or none

An evaluation in place (`components`) looks everything up before it writes. So a requirement whose
entities are there adds as many residuals as it is said to have, and one of whose entities something
is missing adds none.
-/

namespace PlaneSketch

variable {α β : Type}

/-! ### Steps -/

namespace Collecting

/-- The evaluation puts all of the numbers behind those that are there, or leaves these as they
are. -/
def Delivers (steps : Collecting α Unit) (residuals : Except EntityRef (List α)) : Prop :=
  ∀ out, steps.on out =
    match residuals with
    | .ok residuals => (.ok (), out ++ residuals)
    | .error e => (.error e, out)

theorem delivers_put (v : α) : Delivers (put v) (pure [v]) := fun _ => rfl

theorem delivers_putVec (v : Vec α) : Delivers (putVec v) (pure v.toList) := by
  intro out
  show (Except.ok (), out ++ [v.x] ++ [v.y]) = (.ok (), out ++ [v.x, v.y])
  rw [List.append_assoc]
  rfl

theorem delivers_bind {x : Except EntityRef β} {next : β → Collecting α Unit}
    {f : β → Except EntityRef (List α)} (h : ∀ b, Delivers (next b) (f b)) :
    Delivers (ofExcept x >>= next) (x >>= f) := by
  cases x with
  | error => exact fun _ => rfl
  | ok b => exact h b

end Collecting

open Collecting Scalar

namespace Sketch

theorem delivers_collectComponents [Scalar α] (s : Sketch α) (r : Requirement α) :
    Delivers (s.collectComponents r) (s.components r) := by
  cases r with
  | fixed => exact delivers_bind fun _ => delivers_putVec _
  | coincident | pointOnLine | midpoint | concentric =>
    exact delivers_bind fun _ => delivers_bind fun _ => delivers_putVec _
  | symmetric =>
    exact delivers_bind fun _ => delivers_bind fun _ => delivers_bind fun _ => delivers_putVec _
  | horizontal | vertical | length | radius | diameter =>
    exact delivers_bind fun _ => delivers_put _
  | parallel | perpendicular | equalLength | tangent | equalRadius | pointOnCircle | distance
  | horizontalDistance | verticalDistance | angle =>
    exact delivers_bind fun _ => delivers_bind fun _ => delivers_put _

/-! ### What is drawn -/

variable {s : Sketch α}

def IsPoint (s : Sketch α) (id : PointId) : Prop := ∃ p, s.entity? id.raw = some (.point p)

/-- The entity is there and of the kind that the reference says, and so are the points that it is
built on. -/
def IsDrawn (s : Sketch α) : EntityRef → Prop
  | .point id => s.IsPoint id
  | .line id => ∃ l, s.entity? id.raw = some (.line l) ∧ s.IsPoint l.start ∧ s.IsPoint l.stop
  | .circle id => ∃ c, s.entity? id.raw = some (.circle c) ∧ s.IsPoint c.center
  | .arc id => ∃ a, s.entity? id.raw = some (.arc a) ∧ s.IsPoint a.center

theorem exists_position?_iff {id : PointId} :
    (∃ position, s.position? id = some position) ↔ s.IsPoint id := by
  simp only [position?, Option.map_eq_some_iff, point?_eq_some_iff_entity?]
  constructor
  · rintro ⟨_, p, hp, -⟩
    exact ⟨p, hp⟩
  · rintro ⟨p, hp⟩
    exact ⟨_, p, hp, rfl⟩

theorem line?_eq_some_iff_entity? {id : LineId} {l : Line} :
    s.line? id = some l ↔ s.entity? id.raw = some (.line l) := by
  unfold line?
  split
  next hfound => rw [hfound, Option.some.injEq, Option.some.injEq, Entity.line.injEq]
  next hother => exact iff_of_false nofun (hother l)

theorem circle?_eq_some_iff_entity? {id : CircleId} {c : Circle α} :
    s.circle? id = some c ↔ s.entity? id.raw = some (.circle c) := by
  unfold circle?
  split
  next hfound => rw [hfound, Option.some.injEq, Option.some.injEq, Entity.circle.injEq]
  next hother => exact iff_of_false nofun (hother c)

theorem arc?_eq_some_iff_entity? {id : ArcId} {a : Arc α} :
    s.arc? id = some a ↔ s.entity? id.raw = some (.arc a) := by
  unfold arc?
  split
  next hfound => rw [hfound, Option.some.injEq, Option.some.injEq, Entity.arc.injEq]
  next hother => exact iff_of_false nofun (hother a)

theorem exists_shape?_iff_center? {id : CurveId} :
    (∃ shape, s.shape? id = some shape) ↔
      ∃ center, s.center? id = some center ∧ s.IsPoint center := by
  cases hcenter : s.center? id with
  | none => simp [shape?, hcenter]
  | some center =>
    obtain ⟨radius, hradius⟩ : ∃ radius, s.radius? id = some radius := by
      cases id with
      | circle id | arc id =>
        obtain ⟨d, hd, -⟩ := Option.map_eq_some_iff.mp hcenter
        exact ⟨d.radius, by rw [radius?, hd, Option.map_some]⟩
    rw [exists_shape?_iff hcenter hradius, exists_position?_iff]
    simp

theorem locates_iff_isDrawn {e : EntityRef} : s.Locates e ↔ s.IsDrawn e := by
  cases e with
  | point id => exact exists_position?_iff
  | line id =>
    simp only [Locates, IsDrawn, segment?_eq_some_iff, line?_eq_some_iff_entity?,
      ← exists_position?_iff]
    constructor
    · rintro ⟨segment, l, hl, hstart, hstop⟩
      exact ⟨l, hl, ⟨_, hstart⟩, ⟨_, hstop⟩⟩
    · rintro ⟨l, hl, ⟨start, hstart⟩, ⟨stop, hstop⟩⟩
      exact ⟨⟨start, stop⟩, l, hl, hstart, hstop⟩
  | circle id =>
    simp [Locates, IsDrawn, exists_shape?_iff_center?, center?, circle?_eq_some_iff_entity?]
  | arc id =>
    simp [Locates, IsDrawn, exists_shape?_iff_center?, center?, arc?_eq_some_iff_entity?]

/-! ### Evaluations -/

theorem sqrt_sum_squares_eq_norm (residuals : List ℝ) :
    sqrt (sum (residuals.map fun x => x * x)) = ‖WithLp.toLp 2 residuals.get‖ := by
  rw [EuclideanSpace.norm_eq, sum_eq_sum, ← Fin.sum_univ_fun_getElem]
  simp only [Real.norm_eq_abs, sq_abs]
  simp only [sq]
  rfl

/-- An evaluation succeeds exactly where all that the requirement names is drawn. It then adds the
residuals, as many as the requirement is said to have, and the error is their norm. Otherwise it
adds nothing, and the error is that of what does not resolve. -/
theorem collectComponents_all_or_none :
    (∀ {α : Type} [Scalar α] (s : Sketch α) (r : Requirement α) (out : List α),
      (((s.collectComponents r).on out).1 = .ok () ↔ ∀ e ∈ r.references, s.IsDrawn e) ∧
      (((s.collectComponents r).on out).1 = .ok () →
        ∃ residuals, ((s.collectComponents r).on out).2 = out ++ residuals ∧
          residuals.length = r.componentCount ∧
          s.errorOf r = sqrt (sum (residuals.map fun x => x * x))) ∧
      ∀ e, ((s.collectComponents r).on out).1 = .error e →
        ((s.collectComponents r).on out).2 = out ∧ s.errorOf r = unresolvedError ∧
          e ∈ r.references ∧ ¬ s.IsDrawn e) ∧
    ∀ (s : Sketch ℝ) (r : Requirement ℝ) (out residuals : List ℝ),
      (s.collectComponents r).on out = (.ok (), out ++ residuals) →
        s.errorOf r = ‖WithLp.toLp 2 residuals.get‖ := by
  constructor
  · intro α _ s r out
    have hdrawn := exists_components_iff (s := s) (r := r)
    simp only [locates_iff_isDrawn] at hdrawn
    rw [s.delivers_collectComponents r out, errorOf]
    cases hcomponents : s.components r with
    | ok residuals =>
      refine ⟨iff_of_true rfl (hdrawn.mp ⟨residuals, hcomponents⟩), fun _ => ?_, ?_⟩
      · exact ⟨residuals, rfl, length_components hcomponents, rfl⟩
      · rintro _ ⟨⟩
    | error e =>
      obtain ⟨hnamed, hlost⟩ := of_components_eq_error hcomponents
      rw [locates_iff_isDrawn] at hlost
      refine ⟨iff_of_false ?_ fun hall => hlost (hall e hnamed), ?_, ?_⟩
      · rintro ⟨⟩
      · rintro ⟨⟩
      · rintro _ ⟨⟩
        exact ⟨rfl, rfl, hnamed, hlost⟩
  · intro s r out residuals h
    rw [s.delivers_collectComponents r out] at h
    rw [errorOf]
    cases hcomponents : s.components r with
    | ok found =>
      rw [hcomponents] at h
      obtain rfl : found = residuals := List.append_cancel_left (Prod.mk.inj h).2
      exact sqrt_sum_squares_eq_norm found
    | error =>
      rw [hcomponents] at h
      cases h

end Sketch

end PlaneSketch
