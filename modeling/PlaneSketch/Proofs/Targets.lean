import PlaneSketch.Proofs.Arena
import PlaneSketch.Proofs.Conflicts
import PlaneSketch.Proofs.Measured

/-!
# Conflicting targets

Which quantities conflicts are found about (`dimension_conflicts`). All constraints that ask for one
quantity are members, however they name it, and the targets are compared with the one that was asked
for first. Targets agree up to a tolerance, so two that disagree may both agree with the first: then
the order in which the constraints were added decides.
-/

namespace PlaneSketch

variable {α : Type}

/-! ### Ordered quantities -/

theorem orderedPair_comm {β : Type} {raw : β → Nat} (hraw : Function.Injective raw) (a b : β) :
    orderedPair raw b a = orderedPair raw a b := by
  unfold orderedPair
  split
  next hle =>
    split
    next hge => rw [hraw (Nat.le_antisymm hle hge)]
    next => rfl
  next hlt => rw [if_pos (Nat.le_of_not_le hlt)]

theorem PointId.raw_injective : Function.Injective PointId.raw :=
  fun _ _ h => congrArg PointId.mk h

theorem LineId.raw_injective : Function.Injective LineId.raw :=
  fun _ _ h => congrArg LineId.mk h

namespace Quantity

/-- The quantity with its two entities in the order of their ids. -/
def ordered : Quantity → Quantity
  | .separation p q => .separation (orderedPoints p q).1 (orderedPoints p q).2
  | .horizontalGap p q => .horizontalGap (orderedPoints p q).1 (orderedPoints p q).2
  | .verticalGap p q => .verticalGap (orderedPoints p q).1 (orderedPoints p q).2
  | .angle k l => .angle (orderedLines k l).1 (orderedLines k l).2
  | .radius c => .radius c
  | .position p => .position p

theorem ordered_swap (q : Quantity) : q.swap.ordered = q.ordered := by
  cases q with
  | separation p q | horizontalGap p q | verticalGap p q =>
    simp only [swap, ordered, orderedPoints, orderedPair_comm PointId.raw_injective p q]
  | angle k l => simp only [swap, ordered, orderedLines, orderedPair_comm LineId.raw_injective k l]
  | radius | position => rfl

theorem swap_swap (q : Quantity) : q.swap.swap = q := by
  cases q <;> rfl

theorem ordered_cases (q : Quantity) : q.ordered = q ∨ q.ordered = q.swap := by
  cases q with
  | separation p q | horizontalGap p q | verticalGap p q =>
    rcases orderedPair_cases PointId.raw p q with h | h <;>
      simp only [ordered, orderedPoints, h, swap, true_or, or_true]
  | angle k l =>
    rcases orderedPair_cases LineId.raw k l with h | h <;>
      simp only [ordered, orderedLines, h, swap, true_or, or_true]
  | radius | position => exact Or.inl rfl

theorem eq_or_swap_of_ordered {a b : Quantity} (h : a.ordered = b.ordered) :
    b = a ∨ b = a.swap := by
  rcases a.ordered_cases with ha | ha <;> rcases b.ordered_cases with hb | hb <;>
    rw [ha, hb] at h
  · exact Or.inl h.symm
  · exact Or.inr (by rw [h, swap_swap])
  · exact Or.inr h.symm
  · exact Or.inl (by rw [← b.swap_swap, ← h, swap_swap])

theorem key_injective : Function.Injective key := by
  intro a b h
  rcases a with ⟨⟨_⟩, ⟨_⟩⟩ | ⟨⟨_⟩, ⟨_⟩⟩ | ⟨⟨_⟩, ⟨_⟩⟩ | ⟨⟨_⟩, ⟨_⟩⟩ | ⟨⟨⟨_⟩⟩ | ⟨⟨_⟩⟩⟩ | ⟨⟨_⟩⟩ <;>
    rcases b with ⟨⟨_⟩, ⟨_⟩⟩ | ⟨⟨_⟩, ⟨_⟩⟩ | ⟨⟨_⟩, ⟨_⟩⟩ | ⟨⟨_⟩, ⟨_⟩⟩ | ⟨⟨⟨_⟩⟩ | ⟨⟨_⟩⟩⟩ | ⟨⟨_⟩⟩ <;>
    cases h <;> rfl

theorem eq_of_lt_eq_false (a b : Quantity) (hab : a.lt b = false) (hba : b.lt a = false) :
    a = b := by
  refine key_injective ?_
  unfold lt at hab hba
  generalize a.key = first at hab hba ⊢
  generalize b.key = second at hab hba ⊢
  obtain ⟨k, x, y⟩ := first
  obtain ⟨l, u, v⟩ := second
  simp only [Bool.or_eq_false_iff, Bool.and_eq_false_iff, decide_eq_false_iff_not] at hab hba
  obtain ⟨rfl, rfl, rfl⟩ : k = l ∧ x = u ∧ y = v := by omega
  rfl

end Quantity

/-! ### What is asked for -/

namespace Sketch

variable [Scalar α]

/-- The requirement has a target for the quantity, whose two entities may be named in either order.
A length is the separation of the endpoints of the line, coincident points have the separation zero,
and a diameter is a radius twice. -/
inductive Asks (s : Sketch α) : Requirement α → Quantity → Target α → Prop
  | fixed (p position) : s.Asks (.fixed p position) (.position p) (.position position)
  | coincident (p q) : s.Asks (.coincident p q) (.separation p q) (.scalar 0.0)
  | length {l line} (value) (hline : s.line? l = some line) :
    s.Asks (.length l value) (.separation line.start line.stop) (.scalar value)
  | distance (p q value) : s.Asks (.distance p q value) (.separation p q) (.scalar value)
  | horizontalDistance (p q value) :
    s.Asks (.horizontalDistance p q value) (.horizontalGap p q) (.scalar value)
  | verticalDistance (p q value) :
    s.Asks (.verticalDistance p q value) (.verticalGap p q) (.scalar value)
  | angle (k l value) : s.Asks (.angle k l value) (.angle k l) (.scalar value)
  | radius (c value) : s.Asks (.radius c value) (.radius c) (.scalar value)
  | diameter (c value) : s.Asks (.diameter c value) (.radius c) (.scalar (value / 2.0))
  | swap {r q target} (h : s.Asks r q target) : s.Asks r q.swap target

variable {s : Sketch α} {r : Requirement α} {q : Quantity} {target : Target α}

theorem Asks.target?_eq (h : s.Asks r q target) : s.target? r = some (q.ordered, target) := by
  induction h with
  | length value hline => simp only [target?, hline]; rfl
  | swap h ih => rw [ih, Quantity.ordered_swap]
  | _ => rfl

theorem exists_asks {found : Quantity} (h : s.target? r = some (found, target)) :
    ∃ q, q.ordered = found ∧ s.Asks r q target := by
  cases r with
  | length l value =>
    obtain ⟨line, hline, h⟩ := Option.bind_eq_some_iff.mp h
    cases h
    exact ⟨_, rfl, .length value hline⟩
  | fixed | coincident | distance | horizontalDistance | verticalDistance | angle | radius
  | diameter =>
    cases h
    exact ⟨_, rfl, by constructor⟩
  | _ => cases h

theorem target?_eq_some_iff :
    s.target? r = some (q.ordered, target) ↔ s.Asks r q target := by
  refine ⟨fun h => ?_, Asks.target?_eq⟩
  obtain ⟨other, hordered, hasks⟩ := exists_asks h
  rcases Quantity.eq_or_swap_of_ordered hordered with rfl | rfl
  · exact hasks
  · exact hasks.swap

/-- The target that a requirement has for a quantity. -/
def targetFor? (s : Sketch α) (q : Quantity) (r : Requirement α) : Option (Target α) :=
  ((s.target? r).filter (·.1 = q.ordered)).map (·.2)

theorem targetFor?_eq_some_iff : s.targetFor? q r = some target ↔ s.Asks r q target := by
  simp only [targetFor?, Option.map_eq_some_iff, Option.filter_eq_some_iff, decide_eq_true_eq,
    ← target?_eq_some_iff, Prod.exists]
  constructor
  · rintro ⟨_, _, ⟨h, rfl⟩, rfl⟩
    exact h
  · intro h
    exact ⟨_, _, ⟨h, rfl⟩, rfl⟩

/-- What the valid active constraints require, in the order in which they were added. -/
def required (s : Sketch α) : List (Requirement α) := s.validActive.map (·.requirement)

/-- All targets for a quantity. -/
def targets (s : Sketch α) (q : Quantity) : List (Target α) :=
  s.required.filterMap (s.targetFor? q)

/-- A valid active constraint has the target for the quantity. -/
def IsAsked (s : Sketch α) (q : Quantity) (target : Target α) : Prop :=
  ∃ r ∈ s.required, s.Asks r q target

/-- A valid active constraint has the target for the quantity, and none that was added before it has
any. -/
def IsAskedFirst (s : Sketch α) (q : Quantity) (target : Target α) : Prop :=
  ∃ r before after, s.required = before ++ r :: after ∧ s.Asks r q target ∧
    ∀ earlier ∈ before, ∀ other, ¬s.Asks earlier q other

theorem mem_targets_iff : target ∈ s.targets q ↔ s.IsAsked q target := by
  simp only [targets, List.mem_filterMap, targetFor?_eq_some_iff, IsAsked]

theorem head?_targets_eq_some_iff :
    (s.targets q).head? = some target ↔ s.IsAskedFirst q target := by
  simp only [targets, List.head?_filterMap, List.findSome?_eq_some_iff, targetFor?_eq_some_iff,
    Option.eq_none_iff_forall_ne_some, ne_eq, IsAskedFirst]
  constructor
  · rintro ⟨before, r, after, hsplit, hasks, hbefore⟩
    exact ⟨r, before, after, hsplit, hasks, hbefore⟩
  · rintro ⟨r, before, after, hsplit, hasks, hbefore⟩
    exact ⟨before, r, after, hsplit, hasks, hbefore⟩

theorem IsAskedFirst.isAsked (h : s.IsAskedFirst q target) : s.IsAsked q target :=
  mem_targets_iff.mp (List.mem_of_mem_head? (head?_targets_eq_some_iff.mpr h))

theorem IsAskedFirst.unique {other : Target α} (h : s.IsAskedFirst q target)
    (hother : s.IsAskedFirst q other) : target = other :=
  Option.some.inj ((head?_targets_eq_some_iff.mpr h).symm.trans
    (head?_targets_eq_some_iff.mpr hother))

theorem IsAsked.exists_first (h : s.IsAsked q target) : ∃ first, s.IsAskedFirst q first := by
  have hne : s.targets q ≠ [] := List.ne_nil_of_mem (mem_targets_iff.mpr h)
  exact ⟨_, head?_targets_eq_some_iff.mp (List.head?_eq_some_head hne)⟩

theorem map_targeting (s : Sketch α) (q : Quantity) :
    (Conflict.targeting s s.validActive q.ordered).map (·.2) = s.targets q := by
  unfold Conflict.targeting targets required
  rw [List.map_filterMap, List.filterMap_map]
  congr 1
  funext k
  simp only [Function.comp, targetFor?]
  cases s.target? k.requirement with
  | none => rfl
  | some found =>
    obtain ⟨other, target⟩ := found
    by_cases h : other = q.ordered
    · simp [h]
    · simp [h]

/-! ### Other orders -/

/-- The sketch with some constraints instead of its own, as if they had been added in this order. -/
def reordered (s : Sketch α) (constraints : List (Constraint α)) : Sketch α :=
  { s with
    constraints := constraints.zipIdx.map fun (k, place) => { k with id := ⟨place⟩ }
    nextConstraint := constraints.length }

omit [Scalar α] in
theorem WellFormed.reordered (h : s.WellFormed) (constraints : List (Constraint α)) :
    (s.reordered constraints).WellFormed := by
  have hraws : (s.reordered constraints).arena.constraintRaws = List.range constraints.length := by
    rw [List.range_eq_range', ← List.zipIdx_map_snd 0 constraints]
    exact List.map_map
  exact {
    raws_ascending := h.raws_ascending
    raws_below := h.raws_below
    index_iff := h.index_iff
    removed_below := h.removed_below
    removed_gone := h.removed_gone
    constraints_ascending := by
      rw [hraws]
      exact List.pairwise_lt_range
    constraints_below := by
      rw [hraws]
      exact fun raw hraw => List.mem_range.mp hraw }

theorem required_reordered (s : Sketch α) (constraints : List (Constraint α)) :
    (s.reordered constraints).required =
      (constraints.filter fun k => k.isActive && k.isValid s).map (·.requirement) := by
  unfold required validActive Sketch.reordered
  rw [List.filter_map, List.map_map]
  -- neither the id nor the other constraints matter to what is active and valid
  show ((constraints.zipIdx.filter ((fun k => k.isActive && k.isValid s) ∘ Prod.fst)).map
    ((·.requirement) ∘ Prod.fst)) = _
  rw [← List.map_map, ← List.filter_map, List.zipIdx_map_fst]

theorem asks_reordered {constraints : List (Constraint α)} :
    (s.reordered constraints).Asks r q target ↔ s.Asks r q target := by
  rw [← target?_eq_some_iff, ← target?_eq_some_iff]
  cases r <;> rfl

theorem isAsked_reordered {constraints : List (Constraint α)}
    (hperm : constraints.Perm s.constraints) :
    (s.reordered constraints).IsAsked q target ↔ s.IsAsked q target := by
  have hrequired : (s.reordered constraints).required.Perm s.required := by
    rw [required_reordered]
    exact (hperm.filter _).map _
  simp only [IsAsked, asks_reordered, hrequired.mem_iff]

/-- Every target can be the first. -/
theorem IsAsked.exists_reordered (h : s.IsAsked q target) :
    ∃ constraints, constraints.Perm s.constraints ∧
      (s.reordered constraints).IsAskedFirst q target := by
  obtain ⟨r, hr, hasks⟩ := h
  obtain ⟨k, hk, rfl⟩ := List.mem_map.mp hr
  obtain ⟨hmem, hvalid⟩ := List.mem_filter.mp hk
  obtain ⟨before, after, hsplit⟩ := List.append_of_mem hmem
  have hfirst : (s.reordered (k :: (before ++ after))).required = k.requirement ::
      ((before ++ after).filter fun k => k.isActive && k.isValid s).map (·.requirement) := by
    rw [required_reordered, List.filter_cons, if_pos hvalid, List.map_cons]
  refine ⟨k :: (before ++ after), ?_, ?_⟩
  · rw [hsplit]
    exact List.perm_middle.symm
  · exact ⟨k.requirement, [], _, hfirst, asks_reordered.mpr hasks, nofun⟩

end Sketch

/-! ### What is found -/

namespace Conflict

variable [Scalar α] {tolerance : α}

theorem allAgree_eq_false_iff {targets : List (Target α)} :
    allAgree tolerance targets = false ↔
      ∃ first, targets.head? = some first ∧
        ∃ other ∈ targets, other.agrees tolerance first = false := by
  cases targets with
  | nil => simp [allAgree]
  | cons first rest =>
    simp only [allAgree, List.all_eq_false, Bool.not_eq_true, List.head?_cons, Option.some.injEq,
      exists_eq_left']

theorem mem_targetedQuantities_iff {s : Sketch α} {active : List (Constraint α)} {q : Quantity} :
    q ∈ targetedQuantities s active ↔
      ∃ k ∈ active, ∃ target, s.target? k.requirement = some (q, target) := by
  simp only [targetedQuantities, mem_ascending_iff Quantity.eq_of_lt_eq_false, List.mem_filterMap,
    Option.map_eq_some_iff, Prod.exists, exists_and_right, exists_eq_right]

theorem exists_ofQuantity? [NumberText α] {s : Sketch α} {active : List (Constraint α)}
    {q : Quantity} (h : allAgree tolerance ((targeting s active q).map (·.2)) = false) :
    ∃ conflict, ofQuantity? s active tolerance q = some conflict := by
  have hne : targeting s active q ≠ [] := by
    intro hnone
    rw [hnone] at h
    cases h
  obtain ⟨pair, hpair⟩ := List.exists_mem_of_ne_nil _ hne
  have hmember : pair.1.id ∈ ascendingIds ((targeting s active q).map (·.1.id)) :=
    (mem_ascendingIds_iff ..).mpr (List.mem_map_of_mem hpair)
  have hlast := List.getLast?_eq_some_getLast (List.ne_nil_of_mem hmember)
  unfold ofQuantity?
  dsimp only
  rw [h, hlast]
  exact ⟨_, rfl⟩

end Conflict

namespace Sketch

variable [Scalar α] [NumberText α] {s : Sketch α} {tolerance : α} {q : Quantity}
  {conflict : Conflict}

open Conflict

/-- A conflict about the quantity is found. -/
def Reports (s : Sketch α) (tolerance : α) (q : Quantity) : Prop :=
  ∃ conflict ∈ betweenTargets s s.validActive tolerance, conflict.subject = .quantity q.ordered

theorem ofQuantity?_of_subject {found : Quantity}
    (h : conflict ∈ betweenTargets s s.validActive tolerance)
    (hsubject : conflict.subject = .quantity found) :
    ofQuantity? s s.validActive tolerance found = some conflict := by
  obtain ⟨other, -, hother⟩ := List.mem_filterMap.mp h
  obtain ⟨-, hfor, -⟩ := of_ofQuantity? hother
  rw [hfor] at hsubject
  rwa [← Subject.quantity.inj hsubject]

/-- The targets of a quantity are compared with the one that was asked for first. -/
theorem reports_iff :
    s.Reports tolerance q ↔ ∃ first, s.IsAskedFirst q first ∧
      ∃ other, s.IsAsked q other ∧ other.agrees tolerance first = false := by
  have hfirst : allAgree tolerance (s.targets q) = false ↔ ∃ first, s.IsAskedFirst q first ∧
      ∃ other, s.IsAsked q other ∧ other.agrees tolerance first = false := by
    simp only [allAgree_eq_false_iff, head?_targets_eq_some_iff, mem_targets_iff]
  rw [← hfirst, ← map_targeting]
  constructor
  · rintro ⟨conflict, hconflict, hsubject⟩
    exact (of_ofQuantity? (ofQuantity?_of_subject hconflict hsubject)).1
  · intro hdisagree
    obtain ⟨conflict, hconflict⟩ := exists_ofQuantity? hdisagree
    rw [map_targeting] at hdisagree
    obtain ⟨first, hasked, -⟩ := hfirst.mp hdisagree
    obtain ⟨r, hr, hasks⟩ := hasked.isAsked
    obtain ⟨k, hk, rfl⟩ := List.mem_map.mp hr
    have hquantity : q.ordered ∈ targetedQuantities s s.validActive :=
      mem_targetedQuantities_iff.mpr ⟨k, hk, first, target?_eq_some_iff.mpr hasks⟩
    exact ⟨conflict, List.mem_filterMap.mpr ⟨_, hquantity, hconflict⟩,
      (of_ofQuantity? hconflict).2.1⟩

/-- A conflict is about one quantity, and its members are all that ask for it. -/
theorem exists_members_iff (h : conflict ∈ betweenTargets s s.validActive tolerance) :
    ∃ q : Quantity, conflict.subject = .quantity q.ordered ∧ ∀ id, id ∈ conflict.members ↔
      ∃ k ∈ s.validActive, k.id = id ∧ ∃ target, s.Asks k.requirement q target := by
  obtain ⟨found, hfound, hconflict⟩ := List.mem_filterMap.mp h
  obtain ⟨_, -, _, htarget⟩ := mem_targetedQuantities_iff.mp hfound
  obtain ⟨q, rfl, -⟩ := exists_asks htarget
  obtain ⟨-, hsubject, -, hmembers, -⟩ := of_ofQuantity? hconflict
  refine ⟨q, hsubject, fun id => ?_⟩
  rw [hmembers, mem_ascendingIds_iff, List.mem_map]
  simp only [mem_targeting_iff, target?_eq_some_iff, Prod.exists]
  constructor
  · rintro ⟨k, target, ⟨hk, hasks⟩, hid⟩
    exact ⟨k, hk, hid, target, hasks⟩
  · rintro ⟨k, hk, hid, target, hasks⟩
    exact ⟨k, target, ⟨hk, hasks⟩, hid⟩

/-! ### Which quantities are found -/

theorem reports_reordered_congr {constraints : List (Constraint α)}
    (hperm : constraints.Perm s.constraints)
    (h : ∀ first, (s.reordered constraints).IsAskedFirst q first ↔ s.IsAskedFirst q first) :
    (s.reordered constraints).Reports tolerance q ↔ s.Reports tolerance q := by
  simp only [reports_iff, h, isAsked_reordered hperm]

theorem exists_reports_reordered_iff :
    (∃ constraints, constraints.Perm s.constraints ∧
        (s.reordered constraints).Reports tolerance q) ↔
      ∃ target other, s.IsAsked q target ∧ s.IsAsked q other ∧
        other.agrees tolerance target = false := by
  constructor
  · rintro ⟨constraints, hperm, hreports⟩
    obtain ⟨first, hfirst, other, hother, hdisagree⟩ := reports_iff.mp hreports
    exact ⟨first, other, (isAsked_reordered hperm).mp hfirst.isAsked,
      (isAsked_reordered hperm).mp hother, hdisagree⟩
  · rintro ⟨first, other, hfirst, hother, hdisagree⟩
    obtain ⟨constraints, hperm, hasked⟩ := hfirst.exists_reordered
    exact ⟨constraints, hperm, reports_iff.mpr
      ⟨first, hasked, other, (isAsked_reordered hperm).mpr hother, hdisagree⟩⟩

theorem forall_reports_reordered_iff :
    (∀ constraints, constraints.Perm s.constraints →
        (s.reordered constraints).Reports tolerance q) ↔
      (∃ target, s.IsAsked q target) ∧ ∀ target, s.IsAsked q target →
        ∃ other, s.IsAsked q other ∧ other.agrees tolerance target = false := by
  constructor
  · intro hall
    have hsame : s.constraints.Perm s.constraints := List.Perm.refl _
    obtain ⟨first, hfirst, -⟩ := reports_iff.mp (hall _ hsame)
    refine ⟨⟨first, (isAsked_reordered hsame).mp hfirst.isAsked⟩, ?_⟩
    intro target htarget
    obtain ⟨constraints, hperm, hasked⟩ := htarget.exists_reordered
    obtain ⟨first', hfirst', other, hother, hdisagree⟩ := reports_iff.mp (hall _ hperm)
    rw [hasked.unique hfirst']
    exact ⟨other, (isAsked_reordered hperm).mp hother, hdisagree⟩
  · rintro ⟨⟨target, htarget⟩, hall⟩ constraints hperm
    obtain ⟨first, hfirst⟩ := ((isAsked_reordered hperm).mpr htarget).exists_first
    obtain ⟨other, hother, hdisagree⟩ := hall first ((isAsked_reordered hperm).mp hfirst.isAsked)
    exact reports_iff.mpr ⟨first, hfirst, other, (isAsked_reordered hperm).mpr hother, hdisagree⟩

/-- The conflicts of targets have all constraints that ask for one quantity as their members, and a
quantity has one exactly if a target disagrees with the first. So the order in which the
constraints were added matters only as far as it says which target is the first; two targets that
disagree are found in some order, and in every order if no target agrees with all. -/
theorem betweenTargets_decides (s : Sketch α) (tolerance : α) :
    (∀ conflict ∈ betweenTargets s s.validActive tolerance,
      ∃ q : Quantity, conflict.subject = .quantity q.ordered ∧ ∀ id, id ∈ conflict.members ↔
        ∃ k ∈ s.validActive, k.id = id ∧ ∃ target, s.Asks k.requirement q target) ∧
    ∀ q : Quantity,
      (s.Reports tolerance q ↔ ∃ first, s.IsAskedFirst q first ∧
        ∃ other, s.IsAsked q other ∧ other.agrees tolerance first = false) ∧
      (∀ constraints, constraints.Perm s.constraints →
        (s.WellFormed → (s.reordered constraints).WellFormed) ∧
        ((∀ first, (s.reordered constraints).IsAskedFirst q first ↔ s.IsAskedFirst q first) →
          ((s.reordered constraints).Reports tolerance q ↔ s.Reports tolerance q))) ∧
      ((∃ constraints, constraints.Perm s.constraints ∧
          (s.reordered constraints).Reports tolerance q) ↔
        ∃ target other, s.IsAsked q target ∧ s.IsAsked q other ∧
          other.agrees tolerance target = false) ∧
      ((∀ constraints, constraints.Perm s.constraints →
          (s.reordered constraints).Reports tolerance q) ↔
        (∃ target, s.IsAsked q target) ∧ ∀ target, s.IsAsked q target →
          ∃ other, s.IsAsked q other ∧ other.agrees tolerance target = false) := by
  refine ⟨fun _ => exists_members_iff, fun q => ⟨reports_iff, ?_, exists_reports_reordered_iff,
    forall_reports_reordered_iff⟩⟩
  intro constraints hperm
  exact ⟨fun h => h.reordered constraints, reports_reordered_congr hperm⟩

end Sketch

/-- A radius of the circle `C1`. -/
def ofRadius (raw : Nat) (value : Float) : Constraint Float :=
  ⟨⟨raw⟩, .radius (.circle ⟨1⟩) value, true, true, 1.0⟩

/-- A circle with three radii, of which the last two both agree with the first. -/
def threeRadii : Sketch Float :=
  let s := ((Sketch.empty "three radii").addPoint ⟨0.0, 0.0⟩).2.push fun raw =>
    .circle ⟨⟨raw⟩, ⟨0⟩, 1.0, false⟩
  { s with
    constraints := [ofRadius 0 1.0, ofRadius 1 1.0000009, ofRadius 2 0.9999991]
    nextConstraint := 3 }

open Sketch in
/-- Two of the radii disagree, and are found only if another one than the first comes first. -/
theorem Sketch.exists_disagreement_not_reported :
    (∃ target other, threeRadii.IsAsked (.radius (.circle ⟨1⟩)) target ∧
      threeRadii.IsAsked (.radius (.circle ⟨1⟩)) other ∧ other.agrees 1e-6 target = false) ∧
    ¬threeRadii.Reports 1e-6 (.radius (.circle ⟨1⟩)) ∧
    ∃ constraints, constraints.Perm threeRadii.constraints ∧
      (threeRadii.reordered constraints).Reports 1e-6 (.radius (.circle ⟨1⟩)) := by
  have hrequired : ∀ k ∈ threeRadii.constraints, k.requirement ∈ threeRadii.required := by
    decide +kernel
  refine ⟨⟨.scalar 1.0000009, .scalar 0.9999991, ?_, ?_, by decide +kernel⟩, ?_, ?_⟩
  · exact ⟨_, hrequired (ofRadius 1 1.0000009) (by simp [threeRadii]), .radius ..⟩
  · exact ⟨_, hrequired (ofRadius 2 0.9999991) (by simp [threeRadii]), .radius ..⟩
  · unfold Reports
    decide +kernel
  · refine ⟨[ofRadius 1 1.0000009, ofRadius 0 1.0, ofRadius 2 0.9999991], List.Perm.swap .., ?_⟩
    unfold Reports
    decide +kernel

end PlaneSketch
