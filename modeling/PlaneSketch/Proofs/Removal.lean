import Mathlib.Data.List.Find
import PlaneSketch.Proofs.Agreement
import PlaneSketch.Proofs.Reachable

/-!
# Removal

What goes with an entity that is removed, and what a purge (`purge_dangling`) finds afterwards. A
removed point takes along what is built on it, and nothing else is touched. The removed ids are
exactly those that went out of use at some time, so a purge finds exactly the constraints on what is
gone, and a constraint that it keeps fits the sketch as well as it did before.
-/

namespace PlaneSketch

variable {α : Type}

/-- Whether an entity goes when something is removed: because it is that, or is built on it. -/
def Entity.goesWith (d : Entity α) (e : EntityRef) : Bool :=
  d.ref = e || d.basePoints.any fun id => EntityRef.point id = e

theorem Entity.goesWith_iff {d : Entity α} {e : EntityRef} :
    d.goesWith e = true ↔ d.ref = e ∨ ∃ id ∈ d.basePoints, EntityRef.point id = e := by
  simp only [goesWith, Bool.or_eq_true, decide_eq_true_eq, List.any_eq_true]

namespace Sketch

/-- Removes an entity by the operation for its kind. -/
def remove (s : Sketch α) : EntityRef → Except (Fault α) (Sketch α)
  | .point id => (s.removePoint id).map (·.2)
  | .line id => s.removeLine id
  | .circle id => s.removeCircle id
  | .arc id => s.removeArc id

variable {s t : Sketch α} {e : EntityRef}

/-! ### One removal -/

/-- What a removal leaves. -/
structure Removes (s : Sketch α) (e : EntityRef) (t : Sketch α) : Prop where
  eq : t = { s with removed := t.removed }.withEntities (s.entities.filter (!·.goesWith e))
  mem_removed_iff : ∀ raw, raw ∈ t.removed ↔
    raw ∈ s.removed ∨ ∃ d ∈ s.entities, d.goesWith e = true ∧ d.raw = raw

theorem Removes.entities (h : s.Removes e t) : t.entities = s.entities.filter (!·.goesWith e) :=
  congrArg Sketch.entities h.eq

theorem Removes.constraints (h : s.Removes e t) : t.constraints = s.constraints := by
  rw [h.eq]
  rfl

theorem WellFormed.raws_nodup (hs : s.WellFormed) : (s.entities.map Entity.raw).Nodup :=
  hs.raws_ascending.imp Nat.ne_of_lt

theorem WellFormed.eq_of_raw_eq (hs : s.WellFormed) {d d' : Entity α} (hd : d ∈ s.entities)
    (hd' : d' ∈ s.entities) (hraw : d.raw = d'.raw) : d = d' :=
  List.inj_on_of_nodup_map hs.raws_nodup hd hd' hraw

/-- A look-up by kind and id finds the entity with that reference. -/
theorem WellFormed.contains_iff (hs : s.WellFormed) :
    s.contains e = true ↔ ∃ d ∈ s.entities, d.ref = e := by
  rw [contains, Option.any_eq_true]
  constructor
  · rintro ⟨d, hfound, href⟩
    exact ⟨d, (hs.entity?_eq_some_iff.mp hfound).1, of_decide_eq_true href⟩
  · rintro ⟨d, hd, rfl⟩
    exact ⟨d, hs.entity?_eq_some_iff.mpr ⟨hd, rfl⟩, decide_eq_true rfl⟩

theorem WellFormed.removes_removePoint (hs : s.WellFormed) {id : PointId} {p : Point α}
    (h : s.removePoint id = .ok (p, t)) : s.Removes (.point id) t := by
  unfold removePoint at h
  split at h
  next => cases h
  next q hq =>
    cases h
    obtain ⟨hmem, rfl⟩ := hs.point?_eq_some_iff.mp hq
    have hgone : ∀ d ∈ s.entities,
        d.raw ∈ p.id.raw :: s.dependents p.id ↔ d.goesWith (.point p.id) = true := by
      intro d hd
      rw [Entity.goesWith_iff, List.mem_cons]
      refine or_congr ⟨?_, ?_⟩ ⟨?_, ?_⟩
      · intro hraw
        rw [hs.eq_of_raw_eq hd hmem hraw]
        rfl
      · exact congrArg EntityRef.raw
      · intro hdependent
        obtain ⟨d', hd', hraw⟩ := List.mem_map.mp hdependent
        obtain ⟨hd', hon⟩ := List.mem_filter.mp hd'
        rw [← hs.eq_of_raw_eq hd' hd hraw]
        exact ⟨p.id, of_decide_eq_true hon, rfl⟩
      · rintro ⟨id, hid, hsame⟩
        rw [EntityRef.point.inj hsame] at hid
        exact List.mem_map_of_mem (List.mem_filter.mpr ⟨hd, decide_eq_true hid⟩)
    have hkept : s.entities.filter (·.raw ∉ p.id.raw :: s.dependents p.id) =
        s.entities.filter (!·.goesWith (.point p.id)) := by
      refine List.filter_congr fun d hd => ?_
      rw [decide_not, Bool.eq_iff_iff, Bool.not_eq_true', Bool.not_eq_true',
        decide_eq_false_iff_not, hgone d hd, Bool.not_eq_true]
    refine ⟨?_, ?_⟩
    · rw [hkept]
      rfl
    · intro raw
      refine (mem_noteRemoved s.removed _).trans (or_congr_right ⟨?_, ?_⟩)
      · intro hraw
        obtain ⟨d, hd, rfl⟩ : ∃ d ∈ s.entities, d.raw = raw := by
          rcases List.mem_cons.mp hraw with rfl | hdependent
          · exact ⟨.point p, hmem, rfl⟩
          · obtain ⟨d, hd, hraw⟩ := List.mem_map.mp hdependent
            exact ⟨d, List.mem_of_mem_filter hd, hraw⟩
        exact ⟨d, hd, (hgone d hd).mp hraw, rfl⟩
      · rintro ⟨d, hd, hgoes, rfl⟩
        exact (hgone d hd).mpr hgoes

/-- Nothing is built on a line or a curve. -/
theorem goesWith_iff_ref_eq {d : Entity α} (hcurve : ∀ id, e ≠ .point id) :
    d.goesWith e = true ↔ d.ref = e := by
  rw [Entity.goesWith_iff, or_iff_left]
  rintro ⟨id, -, hsame⟩
  exact hcurve id hsame.symm

theorem WellFormed.eraseIdx_eq_filter (hs : s.WellFormed) {place : Nat} {d : Entity α}
    (hd : s.entities[place]? = some d) :
    s.entities.eraseIdx place = s.entities.filter (·.ref ≠ d.ref) := by
  obtain ⟨hplace, hat⟩ := List.getElem?_eq_some_iff.mp hd
  have hsplit : s.entities = s.entities.take place ++ d :: s.entities.drop (place + 1) := by
    rw [← hat, ← List.drop_eq_getElem_cons hplace, List.take_append_drop]
  rw [List.eraseIdx_eq_take_drop_succ]
  generalize s.entities.take place = before at hsplit ⊢
  generalize s.entities.drop (place + 1) = after at hsplit ⊢
  -- the raw id of the entity stands at one place only
  have hnodup := hs.raws_nodup
  rw [hsplit, List.map_append, List.map_cons, List.nodup_middle, List.nodup_cons,
    ← List.map_append] at hnodup
  have hothers : ∀ d' ∈ before ++ after, decide (d'.ref ≠ d.ref) = true := by
    intro d' hd'
    refine decide_eq_true fun hsame => hnodup.1 ?_
    exact List.mem_map.mpr ⟨d', hd', congrArg EntityRef.raw hsame⟩
  rw [hsplit, List.filter_append, List.filter_cons_of_neg (by simp), ← List.filter_append,
    List.filter_eq_self.mpr hothers]

theorem WellFormed.removes_removeEntity (hs : s.WellFormed) (h : s.removeEntity e = .ok t)
    (hcurve : ∀ id, e ≠ .point id) : s.Removes e t := by
  unfold removeEntity at h
  split at h
  next => cases h
  next place hplace =>
    split at h
    next hcontains =>
      cases h
      obtain ⟨d, hfound, href⟩ := Option.any_eq_true _ _ |>.mp hcontains
      obtain rfl := of_decide_eq_true href
      rw [entity?, hplace, Option.bind_some] at hfound
      refine ⟨?_, ?_⟩
      · have hkept : s.entities.filter (·.ref ≠ d.ref) =
            s.entities.filter (!·.goesWith d.ref) := by
          refine List.filter_congr fun d' _ => ?_
          rw [Bool.eq_iff_iff, decide_eq_true_iff, Bool.not_eq_true', ← Bool.not_eq_true,
            goesWith_iff_ref_eq hcurve]
        rw [hs.eraseIdx_eq_filter hfound, hkept]
        rfl
      · intro raw
        refine (mem_noteRemoved s.removed _).trans (or_congr_right ?_)
        rw [List.mem_singleton]
        constructor
        · rintro rfl
          exact ⟨d, List.mem_of_getElem? hfound, (goesWith_iff_ref_eq hcurve).mpr rfl, rfl⟩
        · rintro ⟨d', -, hgoes, rfl⟩
          exact congrArg EntityRef.raw ((goesWith_iff_ref_eq hcurve).mp hgoes)
    next => cases h

theorem exists_of_remove_point {id : PointId} (h : s.remove (.point id) = .ok t) :
    ∃ p, s.removePoint id = .ok (p, t) := by
  have hmap : (s.removePoint id).map (·.2) = .ok t := h
  cases hp : s.removePoint id with
  | error =>
    rw [hp] at hmap
    cases hmap
  | ok removed =>
    rw [hp] at hmap
    cases hmap
    exact ⟨removed.1, rfl⟩

theorem WellFormed.removes_remove (hs : s.WellFormed) (h : s.remove e = .ok t) :
    s.Removes e t := by
  cases e with
  | point id =>
    obtain ⟨p, hp⟩ := exists_of_remove_point h
    exact hs.removes_removePoint hp
  | line | circle | arc => exact hs.removes_removeEntity h nofun

theorem exists_removeEntity_iff : (∃ t, s.removeEntity e = .ok t) ↔ s.contains e = true := by
  unfold removeEntity
  constructor
  · rintro ⟨t, ht⟩
    split at ht
    · cases ht
    · split at ht
      next hcontains => exact hcontains
      next => cases ht
  · intro hcontains
    obtain ⟨d, hfound, -⟩ := Option.any_eq_true _ _ |>.mp hcontains
    obtain ⟨place, hplace, -⟩ := Option.bind_eq_some_iff.mp hfound
    simp only [hplace, if_pos hcontains]
    exact ⟨_, rfl⟩

theorem WellFormed.exists_removePoint_iff (hs : s.WellFormed) {id : PointId} :
    (∃ p t, s.removePoint id = .ok (p, t)) ↔ s.contains (.point id) = true := by
  rw [hs.contains_iff]
  unfold removePoint
  constructor
  · rintro ⟨p, t, ht⟩
    split at ht
    next => cases ht
    next q hq =>
      obtain ⟨hmem, rfl⟩ := hs.point?_eq_some_iff.mp hq
      exact ⟨.point q, hmem, rfl⟩
  · rintro ⟨d, hd, href⟩
    cases d with
    | point p =>
      have hp : s.point? id = some p :=
        hs.point?_eq_some_iff.mpr ⟨hd, EntityRef.point.inj href⟩
      rw [hp]
      exact ⟨_, _, rfl⟩
    | line | circle | arc => cases href

/-- A removal is refused only when there is nothing to remove. -/
theorem WellFormed.exists_remove_iff (hs : s.WellFormed) :
    (∃ t, s.remove e = .ok t) ↔ s.contains e = true := by
  cases e with
  | point id =>
    rw [← hs.exists_removePoint_iff]
    show (∃ t, (s.removePoint id).map (·.2) = .ok t) ↔ _
    cases s.removePoint id with
    | error => simp [Except.map]
    | ok removed => exact iff_of_true ⟨_, rfl⟩ ⟨removed.1, removed.2, rfl⟩
  | line | circle | arc => exact exists_removeEntity_iff

theorem evolves_remove (h : s.remove e = .ok t) : s.Evolves t := by
  cases e with
  | point id =>
    obtain ⟨p, hp⟩ := exists_of_remove_point h
    exact evolves_removePoint hp
  | line | circle | arc => exact evolves_removeEntity h

/-! ### Look-ups after a removal -/

theorem Removes.entity?_eq (h : s.Removes e t) (hs : s.WellFormed) (ht : t.WellFormed) {raw : Nat}
    (hraw : raw ∉ t.removed) : t.entity? raw = s.entity? raw := by
  refine Option.ext fun d => ?_
  rw [ht.entity?_eq_some_iff, hs.entity?_eq_some_iff, h.entities, List.mem_filter]
  constructor
  · rintro ⟨⟨hd, -⟩, hid⟩
    exact ⟨hd, hid⟩
  · rintro ⟨hd, rfl⟩
    refine ⟨⟨hd, ?_⟩, rfl⟩
    rw [Bool.not_eq_true', ← Bool.not_eq_true]
    intro hgoes
    exact hraw ((h.mem_removed_iff d.raw).mpr (Or.inr ⟨d, hd, hgoes, rfl⟩))

/-- What is not removed is found as before. -/
theorem Removes.contains_eq (h : s.Removes e t) (hs : s.WellFormed) (ht : t.WellFormed)
    {e' : EntityRef} (hraw : e'.raw ∉ t.removed) : t.contains e' = s.contains e' := by
  unfold contains
  rw [h.entity?_eq hs ht hraw]

theorem defect?_congr [Scalar α] {k : Constraint α}
    (h : ∀ e ∈ k.requirement.references, t.contains e = s.contains e) :
    k.defect? t = k.defect? s := by
  have hmissing : k.requirement.references.find? (!t.contains ·) =
      k.requirement.references.find? (!s.contains ·) :=
    List.find?_congr fun e he => by rw [h e he]
  unfold Constraint.defect?
  rw [hmissing]

/-! ### Removed ids -/

/-- The raw ids that are in use in one sketch and not in another. -/
def lost (s t : Sketch α) : List Nat :=
  (s.entities.map Entity.raw).filter (· ∉ t.entities.map Entity.raw)

theorem mem_lost_iff {raw : Nat} :
    raw ∈ s.lost t ↔ raw ∈ s.arena.raws ∧ raw ∉ t.arena.raws := by
  unfold lost
  rw [List.mem_filter, decide_eq_true_iff]
  rfl

/-- The ids that go out of use between two sketches, and no others, are noted as removed. -/
def Notes (s t : Sketch α) : Prop := ∀ raw, raw ∈ t.removed ↔ raw ∈ s.removed ∨ raw ∈ s.lost t

theorem notes_of_subset (hremoved : t.removed = s.removed)
    (hraws : s.arena.raws ⊆ t.arena.raws) : s.Notes t := by
  intro raw
  rw [hremoved, mem_lost_iff]
  refine (or_iff_left ?_).symm
  rintro ⟨hs, ht⟩
  exact ht (hraws hs)

theorem notes_of_arena (h : t.arena = s.arena) : s.Notes t :=
  notes_of_subset (congrArg Arena.removed h) (congrArg Arena.raws h ▸ List.Subset.refl _)

theorem Removes.notes (h : s.Removes e t) (hs : s.WellFormed) : s.Notes t := by
  intro raw
  rw [h.mem_removed_iff, mem_lost_iff]
  refine or_congr_right ⟨?_, ?_⟩
  · rintro ⟨d, hd, hgoes, rfl⟩
    refine ⟨List.mem_map_of_mem hd, ?_⟩
    intro hin
    obtain ⟨d', hd', hraw⟩ := List.mem_map.mp hin
    rw [h.entities, List.mem_filter] at hd'
    rw [hs.eq_of_raw_eq hd'.1 hd hraw, hgoes] at hd'
    cases hd'.2
  · rintro ⟨hin, hout⟩
    obtain ⟨d, hd, rfl⟩ := List.mem_map.mp hin
    refine ⟨d, hd, ?_, rfl⟩
    by_contra hstays
    refine hout (List.mem_map_of_mem (f := Entity.raw) ?_)
    rw [h.entities, List.mem_filter, Bool.not_eq_true', ← Bool.not_eq_true]
    exact ⟨hd, hstays⟩

theorem notes_push [Scalar α] {make : Nat → Entity α}
    (hmake : (make s.nextEntity).raw = s.nextEntity) : s.Notes (s.push make) := by
  refine notes_of_subset rfl ?_
  rw [raws_push s hmake]
  exact List.subset_append_left _ _

end Sketch

variable [Scalar α]

namespace Operation

open Sketch

omit [Scalar α] in
theorem notes_getD {s : Sketch α} {t? : Option (Sketch α)} (h : ∀ t, t? = some t → s.Notes t) :
    s.Notes (t?.getD s) := by
  cases t? with
  | none => exact notes_of_arena rfl
  | some t => exact h t rfl

/-- Every operation notes the ids that it puts out of use. -/
theorem notes_apply (op : Operation α) {s : Sketch α} (hs : s.WellFormed) :
    s.Notes (op.apply s) := by
  have hsame (t : Sketch α) (h : t.arena = s.arena) : s.Notes t := notes_of_arena h
  cases op with
  | addPoint | addFixedPoint => exact notes_push rfl
  | addLine start stop =>
    show s.Notes (s.addLine start stop).2
    unfold Sketch.addLine
    split
    · exact hsame s rfl
    · split
      · exact hsame s rfl
      · exact notes_push rfl
  | addCircle center radius =>
    show s.Notes (s.addCircle center radius).2
    unfold Sketch.addCircle
    split
    · exact hsame s rfl
    · split
      · exact notes_of_subset rfl (List.Subset.refl _)
      · exact notes_push rfl
  | addArc center radius startAngle stopAngle =>
    show s.Notes (s.addArc center radius startAngle stopAngle).2
    unfold Sketch.addArc
    split
    · exact hsame s rfl
    · split
      · exact notes_of_subset rfl (List.Subset.refl _)
      · exact notes_push rfl
  | addConstraint | applySuggestion | purge => exact notes_of_subset rfl (List.Subset.refl _)
  | fixPoint id =>
    show s.Notes (s.fixPoint id).2
    unfold Sketch.fixPoint
    split
    · exact hsame s rfl
    · exact notes_of_subset rfl (List.Subset.refl _)
  | setPosition id position =>
    exact notes_getD fun t ht => hsame t (arena_setPosition (ok_of_toOption ht))
  | setEnabled | setDriving =>
    exact notes_getD fun t ht => hsame t (arena_editConstraint (ok_of_toOption ht) fun _ => rfl)
  | setValue id value =>
    exact notes_getD fun t ht => hsame t (arena_setValue (ok_of_toOption ht))
  | removePoint id =>
    refine notes_getD fun t ht => ?_
    obtain ⟨⟨p, _⟩, hremoved, rfl⟩ := Option.map_eq_some_iff.mp ht
    exact (hs.removes_removePoint (ok_of_toOption hremoved)).notes hs
  | removeLine | removeCircle | removeArc =>
    exact notes_getD fun t ht => (hs.removes_removeEntity (ok_of_toOption ht) nofun).notes hs
  | removeConstraint id =>
    refine notes_getD fun t ht => ?_
    obtain ⟨⟨_, _⟩, hremoved, rfl⟩ := Option.map_eq_some_iff.mp ht
    obtain ⟨_, -, heq⟩ := Option.map_eq_some_iff.mp hremoved
    cases heq
    exact notes_of_subset rfl (List.Subset.refl _)
  | solve m c state =>
    show s.Notes (s.solveFrom m c state).sketch
    rcases s.outline_solveFrom m c state with hkept | houtline
    · rw [hkept]
      exact hsame s rfl
    · have harena := arena_of_outline houtline
      exact notes_of_subset (congrArg Arena.removed harena)
        (congrArg Arena.raws harena ▸ List.Subset.refl _)
  | editPoint id f => exact notes_getD fun t ht => hsame t (arena_editPoint? ht fun _ => rfl)
  | editLine id f => exact notes_getD fun t ht => hsame t (arena_editLine? ht fun _ => rfl)
  | editConstraint id f =>
    exact notes_getD fun t ht => hsame t (arena_editConstraint? ht fun _ => rfl)

/-- The raw ids that go out of use in the course of some operations. -/
def lostIn : List (Operation α) → Sketch α → List Nat
  | [], _ => []
  | op :: later, s => s.lost (op.apply s) ++ lostIn later (op.apply s)

theorem mem_removed_run {ops : List (Operation α)} {s : Sketch α} (hs : s.WellFormed)
    (raw : Nat) : raw ∈ (run ops s).removed ↔ raw ∈ s.removed ∨ raw ∈ lostIn ops s := by
  induction ops generalizing s with
  | nil => simp [run, lostIn]
  | cons op later ih =>
    have hlater := ih ((op.evolves_apply s).wellFormed hs)
    show raw ∈ (run later (op.apply s)).removed ↔ _
    rw [hlater, notes_apply op hs raw, lostIn, List.mem_append, or_assoc]

/-- Whatever was done to a sketch that started empty, a removal succeeds exactly when there is
something to remove, takes out that and what is built on it, and leaves the rest and the
constraints alone. A purge then gives the constraints that name an id that went out of use at any
time, and keeps the others, both in their order; a second one finds nothing. So a constraint whose
references resolved is purged or has them all still, and the kept ones have the same defects. -/
theorem remove_run_empty (ops : List (Operation α)) (name : String) (e : EntityRef) :
    let s := run ops (empty name)
    ((∃ t, s.remove e = .ok t) ↔ s.contains e = true) ∧
    ∀ t, s.remove e = .ok t →
      let gone := lostIn ops (empty name) ++ s.lost t
      let isOnGone := fun k : Constraint α => k.requirement.references.any (·.raw ∈ gone)
      let kept := t.purge.2
      t.entities = s.entities.filter (!·.goesWith e) ∧
      t.constraints = s.constraints ∧
      t.purge.1 = s.constraints.filter isOnGone ∧
      kept.constraints = s.constraints.filter (!isOnGone ·) ∧
      kept.purge.1 = [] ∧
      (∀ k ∈ s.constraints, (∀ e' ∈ k.requirement.references, s.contains e' = true) →
        k ∈ t.purge.1 ∨
          k ∈ kept.constraints ∧ ∀ e' ∈ k.requirement.references, kept.contains e' = true) ∧
      ∀ k ∈ kept.constraints, k.defect? kept = k.defect? s := by
  intro s
  have hs : s.WellFormed := wellFormed_run_empty ops name
  refine ⟨hs.exists_remove_iff, ?_⟩
  intro t h gone isOnGone kept
  have hremoves : s.Removes e t := hs.removes_remove h
  have ht : t.WellFormed := (evolves_remove h).wellFormed hs
  have hremoved : ∀ raw, raw ∈ t.removed ↔ raw ∈ gone := by
    intro raw
    rw [hremoves.notes hs raw, mem_removed_run (wellFormed_empty name), List.mem_append]
    simp [empty]
  have hdangling : t.isDangling = isOnGone := by
    funext k
    unfold isDangling
    simp only [hremoved]
    rfl
  have hpurge : t.purge = (s.constraints.filter isOnGone,
      { t with constraints := s.constraints.filter (!isOnGone ·) }) := by
    rw [purge_eq_filter, hdangling, hremoves.constraints]
  have hkept : kept.constraints = s.constraints.filter (!isOnGone ·) := by
    show t.purge.2.constraints = _
    rw [hpurge]
  -- what a constraint names that is not on anything gone is found as before
  have hfound : ∀ k, isOnGone k = false → ∀ e' ∈ k.requirement.references,
      kept.contains e' = s.contains e' := by
    intro k hk e' he'
    refine hremoves.contains_eq hs ht ?_
    rw [hremoved]
    simpa using List.any_eq_false.mp hk e' he'
  refine ⟨hremoves.entities, hremoves.constraints, by rw [hpurge], hkept, ?_, ?_, ?_⟩
  · have hagain : kept.isDangling = isOnGone := hdangling
    rw [purge_eq_filter, hkept, hagain, List.filter_filter]
    simp
  · intro k hk hresolve
    cases hon : isOnGone k with
    | true =>
      left
      rw [hpurge]
      exact List.mem_filter.mpr ⟨hk, hon⟩
    | false =>
      right
      rw [hkept]
      refine ⟨List.mem_filter.mpr ⟨hk, by rw [hon]; rfl⟩, ?_⟩
      intro e' he'
      rw [hfound k hon e' he']
      exact hresolve e' he'
  · intro k hk
    rw [hkept, List.mem_filter, Bool.not_eq_true'] at hk
    exact defect?_congr (hfound k hk.2)

/-- A line with a constraint on it and a distance from one of its ends, and a circle that is removed
together with what its radius was to be. -/
def brokenLine : List (Operation Float) :=
  [.addPoint ⟨0.0, 0.0⟩, .addPoint ⟨1.0, 0.0⟩, .addPoint ⟨0.0, 2.0⟩, .addLine ⟨0⟩ ⟨1⟩,
    .addCircle ⟨2⟩ 5.0, .addConstraint (.horizontal ⟨3⟩), .addConstraint (.distance ⟨0⟩ ⟨2⟩ 2.0),
    .addConstraint (.radius (.circle ⟨4⟩) 5.0), .removeCircle ⟨4⟩]

theorem remove_run_brokenLine :
    ∃ t, (run brokenLine (empty "")).remove (.point ⟨1⟩) = .ok t ∧
      t.purge.1.map (·.id.raw) = [0, 2] ∧
      ∃ k ∈ t.purge.2.constraints, k.id = ⟨1⟩ ∧
        ∀ e' ∈ k.requirement.references, t.purge.2.contains e' = true := by
  have hpresent : (run brokenLine (empty "")).contains (.point ⟨1⟩) = true := by decide +kernel
  have hpurged : ((run brokenLine (empty "")).remove (.point ⟨1⟩)).toOption.map
      (fun t => t.purge.1.map (·.id.raw)) = some [0, 2] := by
    decide +kernel
  obtain ⟨t, ht⟩ := (remove_run_empty brokenLine "" (.point ⟨1⟩)).1.mpr hpresent
  rw [ht] at hpurged
  have hpurged : t.purge.1.map (·.id.raw) = [0, 2] := Option.some.inj hpurged
  have hsound : (run brokenLine (empty "")).constraints.any (fun k => k.id = ⟨1⟩ &&
      k.requirement.references.all (run brokenLine (empty "")).contains) = true := by
    decide +kernel
  obtain ⟨k, hk, hsound⟩ := List.any_eq_true.mp hsound
  rw [Bool.and_eq_true, decide_eq_true_iff, List.all_eq_true] at hsound
  obtain ⟨hid, hresolve⟩ := hsound
  obtain ⟨-, -, -, -, -, hkept, -⟩ := (remove_run_empty brokenLine "" (.point ⟨1⟩)).2 t ht
  refine ⟨t, ht, hpurged, ?_⟩
  rcases hkept k hk hresolve with hgone | ⟨hstays, hfound⟩
  · have hraw : k.id.raw ∈ t.purge.1.map (·.id.raw) := List.mem_map.mpr ⟨k, hgone, rfl⟩
    rw [hpurged, hid] at hraw
    simp at hraw
  · exact ⟨k, hstays, hid, hfound⟩

end Operation

end PlaneSketch
