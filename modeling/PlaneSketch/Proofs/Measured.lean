import PlaneSketch.Diagnosis.Conflict.Target
import PlaneSketch.Proofs.Exact

/-!
# Measured quantities

What the quantities are that dimensions have targets for (`target_of`), and that a dimension without
an error has its target measured. Two dimensions of one quantity hold together only if their targets
are equal.
-/

namespace PlaneSketch

open Scalar

theorem orderedPair_cases {β : Type} (raw : β → Nat) (a b : β) :
    orderedPair raw a b = (a, b) ∨ orderedPair raw a b = (b, a) := by
  unfold orderedPair
  split
  · exact Or.inl rfl
  · exact Or.inr rfl

theorem eq_or_swap_of_orderedPair {β : Type} {raw : β → Nat} {a b c d : β}
    (h : orderedPair raw a b = orderedPair raw c d) : a = c ∧ b = d ∨ a = d ∧ b = c := by
  rcases orderedPair_cases raw a b with hab | hab <;>
    rcases orderedPair_cases raw c d with hcd | hcd <;>
    rw [hab, hcd, Prod.mk.injEq] at h
  · exact Or.inl h
  · exact Or.inr h
  · exact Or.inr h.symm
  · exact Or.inl h.symm

/-- The quantity with its two entities in the other order. -/
def Quantity.swap : Quantity → Quantity
  | .separation p q => .separation q p
  | .horizontalGap p q => .horizontalGap q p
  | .verticalGap p q => .verticalGap q p
  | .angle k l => .angle l k
  | q => q

namespace Sketch

/-- What a quantity measures, unless it is about an entity that is not there. -/
def measure? {α : Type} [Scalar α] (s : Sketch α) : Quantity → Option (Target α)
  | .separation p q => do return .scalar ((← s.position? q) - (← s.position? p)).length
  | .horizontalGap p q => do return .scalar (abs ((← s.position? q).x - (← s.position? p).x))
  | .verticalGap p q => do return .scalar (abs ((← s.position? q).y - (← s.position? p).y))
  | .angle k l => do
    return .scalar ((← s.segment? k).direction.angleBetween (← s.segment? l).direction)
  | .radius c => do return .scalar (← s.shape? c).radius
  | .position p => do return .position (← s.position? p)

theorem target?_of_outline {α : Type} [Scalar α] {s t : Sketch α} (h : s.outline = t.outline)
    (r : Requirement α) : s.target? r = t.target? r := by
  cases r with
  | length l value => simp only [target?, line?_of_outline h]
  | _ => rfl

variable (s : Sketch ℝ)

/-- No quantity depends on the order of its two entities. -/
theorem measure?_swap (q : Quantity) : s.measure? q.swap = s.measure? q := by
  cases q with
  | separation p q =>
    simp only [Quantity.swap, measure?]
    cases s.position? p <;> cases s.position? q <;> try rfl
    exact congrArg (some ∘ Target.scalar) (Vec.length_sub_comm ..)
  | horizontalGap p q | verticalGap p q =>
    simp only [Quantity.swap, measure?]
    cases s.position? p <;> cases s.position? q <;> try rfl
    exact congrArg (some ∘ Target.scalar) (abs_sub_comm ..)
  | angle k l =>
    simp only [Quantity.swap, measure?]
    cases s.segment? k <;> cases s.segment? l <;> try rfl
    exact congrArg (some ∘ Target.scalar) (Vec.angleBetween_comm ..)
  | radius | position => rfl

theorem measure?_orderedPair {β : Type} (raw : β → Nat) {make : β → β → Quantity}
    (hmake : ∀ a b, make b a = (make a b).swap) (a b : β) :
    s.measure? (make (orderedPair raw a b).1 (orderedPair raw a b).2) = s.measure? (make a b) := by
  rcases orderedPair_cases raw a b with h | h <;> rw [h]
  rw [hmake, measure?_swap]

variable {s}

/-- A dimension without an error has its target measured. -/
theorem measure?_of_errorOf_eq_zero {r : Requirement ℝ} {q : Quantity} {target : Target ℝ}
    (h : s.target? r = some (q, target)) (hr : s.errorOf r = 0) : s.measure? q = some target := by
  obtain ⟨residuals, hcomponents, hzero⟩ := (s.errorOf_eq_zero_iff r).mp hr
  cases r <;> simp only [target?, Option.some.injEq, Prod.mk.injEq, reduceCtorEq,
    Option.bind_eq_bind, Option.bind_eq_some_iff, Option.pure_def] at h
  all_goals
    simp only [components, bind_eq_ok_iff_exists, pure, Except.pure, Except.ok.injEq,
      resolvePoint_eq_ok_iff, resolveLine_eq_ok_iff, resolveCurve_eq_ok_iff] at hcomponents
  case fixed p position =>
    obtain ⟨rfl, rfl⟩ := h
    obtain ⟨there, hthere, rfl⟩ := hcomponents
    rw [Vec.eq_of_sub_toList hzero] at hthere
    simp [measure?, hthere]
  case coincident p q =>
    obtain ⟨rfl, rfl⟩ := h
    obtain ⟨start, hstart, stop, hstop, rfl⟩ := hcomponents
    rw [Vec.eq_of_sub_toList hzero] at hstart
    refine (s.measure?_orderedPair PointId.raw (fun _ _ => rfl) p q).trans ?_
    have hlength : (stop - stop).length = 0.0 := by
      rw [Vec.length_self_sub]
      norm_num
    simp [measure?, hstart, hstop, hlength]
  case length l value =>
    obtain ⟨line, hline, rfl, rfl⟩ := h
    obtain ⟨segment, hsegment, rfl⟩ := hcomponents
    obtain ⟨_, hl, hstart, hstop⟩ := segment?_eq_some_iff.mp hsegment
    obtain rfl := Option.some.inj (hline.symm.trans hl)
    refine (s.measure?_orderedPair PointId.raw (fun _ _ => rfl) line.start line.stop).trans ?_
    have hlength : (segment.stop - segment.start).length = value :=
      sub_eq_zero.mp (hzero _ (List.mem_singleton_self _))
    simp [measure?, hstart, hstop, hlength]
  case distance p q value =>
    obtain ⟨rfl, rfl⟩ := h
    obtain ⟨stop, hstop, start, hstart, rfl⟩ := hcomponents
    refine (s.measure?_orderedPair PointId.raw (fun _ _ => rfl) p q).trans ?_
    have hlength : (stop - start).length = value :=
      sub_eq_zero.mp (hzero _ (List.mem_singleton_self _))
    simp [measure?, hstart, hstop, hlength]
  case horizontalDistance p q value =>
    obtain ⟨rfl, rfl⟩ := h
    obtain ⟨stop, hstop, start, hstart, rfl⟩ := hcomponents
    refine (s.measure?_orderedPair PointId.raw (fun _ _ => rfl) p q).trans ?_
    have hgap : Scalar.abs (stop.x - start.x) = value :=
      sub_eq_zero.mp (hzero _ (List.mem_singleton_self _))
    simp [measure?, hstart, hstop, hgap]
  case verticalDistance p q value =>
    obtain ⟨rfl, rfl⟩ := h
    obtain ⟨stop, hstop, start, hstart, rfl⟩ := hcomponents
    refine (s.measure?_orderedPair PointId.raw (fun _ _ => rfl) p q).trans ?_
    have hgap : Scalar.abs (stop.y - start.y) = value :=
      sub_eq_zero.mp (hzero _ (List.mem_singleton_self _))
    simp [measure?, hstart, hstop, hgap]
  case angle k l value =>
    obtain ⟨rfl, rfl⟩ := h
    obtain ⟨first, hfirst, second, hsecond, rfl⟩ := hcomponents
    refine (s.measure?_orderedPair LineId.raw (fun _ _ => rfl) k l).trans ?_
    have hangle : first.direction.angleBetween second.direction = value :=
      sub_eq_zero.mp (hzero _ (List.mem_singleton_self _))
    simp [measure?, hfirst, hsecond, hangle]
  case radius c value =>
    obtain ⟨rfl, rfl⟩ := h
    obtain ⟨shape, hshape, rfl⟩ := hcomponents
    have hradius : shape.radius = value := sub_eq_zero.mp (hzero _ (List.mem_singleton_self _))
    simp [measure?, hshape, hradius]
  case diameter c value =>
    obtain ⟨rfl, rfl⟩ := h
    obtain ⟨shape, hshape, rfl⟩ := hcomponents
    have hradius : shape.radius = value / 2.0 := by
      have hdouble : 2.0 * shape.radius - value = 0 := hzero _ (List.mem_singleton_self _)
      linarith
    simp [measure?, hshape, hradius]

end Sketch

end PlaneSketch
