import PlaneSketch.Proofs.Pins
import PlaneSketch.Residual

/-!
# Residuals

How many residuals a requirement has, and which numbers of a sketch it looks at: a requirement on
points and lines has the same residuals wherever the points that it moves have the same positions.
-/

namespace PlaneSketch

variable {α : Type}

theorem bind_eq_ok_iff_exists {ε β γ : Type} {first : Except ε β} {next : β → Except ε γ} {c : γ} :
    (first >>= next) = .ok c ↔ ∃ b, first = .ok b ∧ next b = .ok c := by
  cases first with
  | error => exact iff_of_false nofun fun ⟨_, h, _⟩ => nomatch h
  | ok b => exact ⟨fun h => ⟨b, rfl, h⟩, fun ⟨_, h, hnext⟩ => Except.ok.inj h ▸ hnext⟩

namespace Sketch

/-! ### What a requirement looks at -/

theorem line?_of_outline {s t : Sketch α} (h : s.outline = t.outline) (id : LineId) :
    s.line? id = t.line? id := by
  unfold line?
  rcases entity?_cases_of_outline h id.raw with ⟨hs, ht⟩ | ⟨d, e, hs, ht, hde⟩
  · rw [hs, ht]
  · rw [hs, ht]
    cases d <;> cases e <;> simp only [Entity.outline, Entity.line.injEq, reduceCtorEq] at hde
    case line.line => rw [hde]
    all_goals rfl

theorem mem_touchedPoints_of_point {s : Sketch α} {r : Requirement α} {p : PointId}
    (h : .point p ∈ r.references) : p ∈ s.touchedPoints r :=
  (mem_foldl_distinct ..).mpr (Or.inr (List.mem_flatMap.mpr ⟨_, h, List.mem_singleton_self p⟩))

theorem mem_touchedPoints_of_line {s : Sketch α} {r : Requirement α} {id : LineId} {l : Line}
    (h : .line id ∈ r.references) (hl : s.line? id = some l) {p : PointId}
    (hp : p = l.start ∨ p = l.stop) : p ∈ s.touchedPoints r := by
  refine (mem_foldl_distinct ..).mpr (Or.inr (List.mem_flatMap.mpr ⟨_, h, ?_⟩))
  have hentity : s.entity? id.raw = some (.line l) := by
    unfold line? at hl
    split at hl
    next hfound => rw [hfound, Option.some.inj hl]
    next => cases hl
  show p ∈ ((s.entity? id.raw).map Entity.basePoints).getD []
  rw [hentity]
  rcases hp with rfl | rfl
  · exact List.mem_cons_self ..
  · exact List.mem_cons_of_mem _ (List.mem_singleton_self _)

theorem center?_of_outline {s t : Sketch α} (h : s.outline = t.outline) (c : CurveId) :
    s.center? c = t.center? c := by
  rcases entity?_cases_of_outline h c.toRef.raw with ⟨hs, ht⟩ | ⟨d, e, hs, ht, hde⟩
  · cases c <;> simp only [CurveId.toRef, EntityRef.raw] at hs ht <;>
      simp only [center?, circle?, arc?, hs, ht]
  · have hbase : d.basePoints = e.basePoints := by
      rw [← d.outline_basePoints, hde, e.outline_basePoints]
    cases c <;> simp only [CurveId.toRef, EntityRef.raw] at hs ht <;>
      simp only [center?, circle?, arc?, hs, ht] <;>
      cases d <;> cases e <;> simp_all [Entity.outline, Entity.basePoints]

theorem mem_touchedPoints_of_center {s : Sketch α} {r : Requirement α} {c : CurveId}
    (h : c.toRef ∈ r.references) {p : PointId} (hp : s.center? c = some p) :
    p ∈ s.touchedPoints r := by
  refine (mem_foldl_distinct ..).mpr (Or.inr (List.mem_flatMap.mpr ⟨_, h, ?_⟩))
  cases c with
  | circle id =>
    obtain ⟨d, hd, rfl⟩ := Option.map_eq_some_iff.mp hp
    have hentity : s.entity? id.raw = some (.circle d) := by
      unfold circle? at hd
      split at hd
      next hfound => rw [hfound, Option.some.inj hd]
      next => cases hd
    show d.center ∈ ((s.entity? id.raw).map Entity.basePoints).getD []
    rw [hentity]
    exact List.mem_singleton_self _
  | arc id =>
    obtain ⟨a, ha, rfl⟩ := Option.map_eq_some_iff.mp hp
    have hentity : s.entity? id.raw = some (.arc a) := by
      unfold arc? at ha
      split at ha
      next hfound => rw [hfound, Option.some.inj ha]
      next => cases ha
    show a.center ∈ ((s.entity? id.raw).map Entity.basePoints).getD []
    rw [hentity]
    exact List.mem_singleton_self _

theorem touchedPoints_of_outline {s t : Sketch α} (h : s.outline = t.outline)
    (r : Requirement α) : s.touchedPoints r = t.touchedPoints r := by
  have hbase (raw : Nat) : (s.entity? raw).map Entity.basePoints =
      (t.entity? raw).map Entity.basePoints := by
    have hentity := congrArg (Option.map Entity.basePoints) (entity?_of_outline h raw)
    simpa only [Option.map_map, Function.comp_def, Entity.outline_basePoints] using hentity
  simp only [touchedPoints, hbase]

theorem segment?_eq_some_iff {s : Sketch α} {id : LineId} {segment : Segment α} :
    s.segment? id = some segment ↔ ∃ l, s.line? id = some l ∧
      s.position? l.start = some segment.start ∧ s.position? l.stop = some segment.stop := by
  unfold segment?
  simp only [Option.bind_eq_bind, Option.bind_eq_some_iff, Option.pure_def, Option.some.injEq]
  constructor
  · rintro ⟨l, hl, start, hstart, stop, hstop, rfl⟩
    exact ⟨l, hl, hstart, hstop⟩
  · rintro ⟨l, hl, hstart, hstop⟩
    exact ⟨l, hl, segment.start, hstart, segment.stop, hstop, rfl⟩

theorem resolvePoint_eq_ok_iff {s : Sketch α} {id : PointId} {position : Vec α} :
    s.resolvePoint id = .ok position ↔ s.position? id = some position := by
  unfold resolvePoint
  cases s.position? id <;> simp

theorem resolveLine_eq_ok_iff {s : Sketch α} {id : LineId} {segment : Segment α} :
    s.resolveLine id = .ok segment ↔ s.segment? id = some segment := by
  unfold resolveLine
  cases s.segment? id <;> simp

theorem resolveCurve_eq_ok_iff {s : Sketch α} {id : CurveId} {shape : CircleShape α} :
    s.resolveCurve id = .ok shape ↔ s.shape? id = some shape := by
  unfold resolveCurve
  cases s.shape? id <;> simp

/-! ### Residuals -/

variable [Scalar α]

theorem length_components {s : Sketch α} {r : Requirement α} {residuals : List α}
    (h : s.components r = .ok residuals) : residuals.length = r.componentCount := by
  cases r <;>
    simp only [components, bind_eq_ok_iff_exists, pure, Except.pure, Except.ok.injEq] at h
  case fixed | horizontal | vertical | length | radius | diameter =>
    obtain ⟨_, _, rfl⟩ := h
    rfl
  case symmetric =>
    obtain ⟨_, _, _, _, _, _, rfl⟩ := h
    rfl
  all_goals
    obtain ⟨_, _, _, _, rfl⟩ := h
    rfl

/-- A requirement has the same residuals where the points that it moves have the same positions and
the curves that it names the same radii. -/
theorem components_of_reads {s t : Sketch α} (h : s.outline = t.outline) {r : Requirement α}
    (hpoints : ∀ p ∈ s.touchedPoints r, s.position? p = t.position? p)
    (hradii : ∀ c : CurveId, c.toRef ∈ r.references → s.radius? c = t.radius? c) :
    s.components r = t.components r := by
  have hpoint : ∀ p, .point p ∈ r.references → s.resolvePoint p = t.resolvePoint p := by
    intro p hp
    simp only [resolvePoint, hpoints p (mem_touchedPoints_of_point hp)]
  have hline : ∀ l, .line l ∈ r.references → s.resolveLine l = t.resolveLine l := by
    intro id hid
    have hsegment : s.segment? id = t.segment? id := by
      unfold segment?
      rw [← line?_of_outline h]
      cases hl : s.line? id with
      | none => rfl
      | some l =>
        have hstart := hpoints _ (mem_touchedPoints_of_line hid hl (Or.inl rfl))
        have hstop := hpoints _ (mem_touchedPoints_of_line hid hl (Or.inr rfl))
        simp only [Option.bind_eq_bind, Option.bind_some, hstart, hstop]
    simp only [resolveLine, hsegment]
  have hcurve : ∀ c : CurveId, c.toRef ∈ r.references → s.resolveCurve c = t.resolveCurve c := by
    intro c hc
    have hshape : s.shape? c = t.shape? c := by
      unfold shape?
      rw [← center?_of_outline h, hradii c hc]
      cases hcenter : s.center? c with
      | none => rfl
      | some p =>
        have hposition := hpoints p (mem_touchedPoints_of_center hc hcenter)
        simp only [Option.bind_eq_bind, Option.bind_some, hposition]
    simp only [resolveCurve, hshape]
  cases r <;>
    -- every kind looks its entities up by the three functions above
    clear hpoints hradii <;> simp_all [Requirement.references, components]

/-- A requirement that names no curve has the same residuals where the points that it moves have the
same positions. -/
theorem components_of_touchedPoints {s t : Sketch α} (h : s.outline = t.outline)
    {r : Requirement α} (hcurves : ∀ c : CurveId, c.toRef ∉ r.references)
    (hpoints : ∀ p ∈ s.touchedPoints r, s.position? p = t.position? p) :
    s.components r = t.components r :=
  components_of_reads h hpoints fun c hc => absurd hc (hcurves c)

end Sketch

end PlaneSketch
