import PlaneSketch.Proofs.Arena

/-!
# The evolution of an arena

What every operation on a sketch does to its ids. A well-formed arena stays so, removed ids stay
removed, and the counters never go back. The few ways to change the ids themselves are in
`PlaneSketch.Proofs.Arena`; here they are found in the operations.
-/

namespace PlaneSketch

/-- How an arena may change. -/
structure Arena.Evolves (a b : Arena) : Prop where
  wellFormed : a.WellFormed → b.WellFormed
  removed : a.removed ⊆ b.removed
  nextEntity : a.nextEntity ≤ b.nextEntity
  nextConstraint : a.nextConstraint ≤ b.nextConstraint

theorem Arena.Evolves.of_eq {a b : Arena} (h : b = a) : a.Evolves b := by
  subst h
  exact ⟨id, List.Subset.refl _, Nat.le_refl _, Nat.le_refl _⟩

theorem Arena.Evolves.trans {a b c : Arena} (hab : a.Evolves b) (hbc : b.Evolves c) :
    a.Evolves c where
  wellFormed h := hbc.wellFormed (hab.wellFormed h)
  removed := List.Subset.trans hab.removed hbc.removed
  nextEntity := Nat.le_trans hab.nextEntity hbc.nextEntity
  nextConstraint := Nat.le_trans hab.nextConstraint hbc.nextConstraint

namespace Sketch

variable {α : Type} {s t : Sketch α}

/-- One sketch comes from another by operations on it. -/
def Evolves (s t : Sketch α) : Prop := s.arena.Evolves t.arena

theorem Evolves.refl (s : Sketch α) : s.Evolves s := .of_eq rfl

theorem Evolves.trans {u : Sketch α} (hst : s.Evolves t) (htu : t.Evolves u) : s.Evolves u :=
  Arena.Evolves.trans hst htu

theorem Evolves.wellFormed (h : s.Evolves t) (hs : s.WellFormed) : t.WellFormed :=
  Arena.Evolves.wellFormed h hs

theorem Evolves.of_arena (h : t.arena = s.arena) : s.Evolves t := .of_eq h

theorem Evolves.of_outline (h : t.outline = s.outline) : s.Evolves t :=
  .of_arena (arena_of_outline h)

/-! ### Adding -/

theorem evolves_push [Scalar α] {make : Nat → Entity α}
    (hmake : (make s.nextEntity).raw = s.nextEntity) : s.Evolves (s.push make) where
  wellFormed h := WellFormed.push h hmake
  removed := List.Subset.refl _
  nextEntity := Nat.le_succ _
  nextConstraint := Nat.le_refl _

theorem evolves_skipId [Scalar α] (s : Sketch α) : s.Evolves s.skipId where
  wellFormed h := WellFormed.skipId h
  removed := List.Subset.refl _
  nextEntity := Nat.le_succ _
  nextConstraint := Nat.le_refl _

theorem evolves_addConstraint [Scalar α] (s : Sketch α) (r : Requirement α) :
    s.Evolves (s.addConstraint r).2 where
  wellFormed h := WellFormed.addConstraint h r
  removed := List.Subset.refl _
  nextEntity := Nat.le_refl _
  nextConstraint := Nat.le_succ _

theorem evolves_addPointWith [Scalar α] (s : Sketch α) (position : Vec α) (fixed : Bool) :
    s.Evolves (s.addPointWith position fixed).2 :=
  evolves_push rfl

theorem evolves_addLine [Scalar α] (s : Sketch α) (start stop : PointId) :
    s.Evolves (s.addLine start stop).2 := by
  unfold addLine
  split
  · exact .refl s
  · split
    · exact .refl s
    · exact evolves_push rfl

theorem evolves_addCircle [Scalar α] (s : Sketch α) (center : PointId) (radius : α) :
    s.Evolves (s.addCircle center radius).2 := by
  unfold addCircle
  split
  · exact .refl s
  · split
    · exact s.evolves_skipId
    · exact evolves_push rfl

theorem evolves_addArc [Scalar α] (s : Sketch α) (center : PointId)
    (radius startAngle stopAngle : α) :
    s.Evolves (s.addArc center radius startAngle stopAngle).2 := by
  unfold addArc
  split
  · exact .refl s
  · split
    · exact s.evolves_skipId
    · exact evolves_push rfl

theorem evolves_fixPoint [Scalar α] (s : Sketch α) (id : PointId) :
    s.Evolves (s.fixPoint id).2 := by
  unfold fixPoint
  split
  · exact .refl s
  · exact s.evolves_addConstraint _

/-! ### Editing -/

theorem arena_modifyEntity (s : Sketch α) (raw : Nat) {f : Entity α → Entity α}
    (hf : ∀ e, (f e).raw = e.raw) : (s.modifyEntity raw f).arena = s.arena := by
  unfold modifyEntity
  split
  · simp only [arena, map_modify_of_keeps hf]
  · rfl

theorem arena_editPoint? {id : PointId} {f : Point α → Point α} (ht : s.editPoint? id f = some t)
    (hf : ∀ p, (f p).id = p.id) : t.arena = s.arena := by
  obtain ⟨_, -, rfl⟩ := Option.map_eq_some_iff.mp ht
  refine s.arena_modifyEntity id.raw ?_
  intro e
  cases e with
  | point p => exact congrArg PointId.raw (hf p)
  | line | circle | arc => rfl

theorem arena_editLine? {id : LineId} {f : Line → Line} (ht : s.editLine? id f = some t)
    (hf : ∀ l, (f l).id = l.id) : t.arena = s.arena := by
  obtain ⟨_, -, rfl⟩ := Option.map_eq_some_iff.mp ht
  refine s.arena_modifyEntity id.raw ?_
  intro e
  cases e with
  | line l => exact congrArg LineId.raw (hf l)
  | point | circle | arc => rfl

theorem arena_setPosition {id : PointId} {position : Vec α}
    (ht : s.setPosition id position = .ok t) : t.arena = s.arena := by
  unfold setPosition at ht
  split at ht
  next u hu =>
    cases ht
    exact arena_editPoint? hu fun _ => rfl
  next => cases ht

theorem ids_modifyConstraint (id : ConstraintId) {f : Constraint α → Constraint α}
    (hf : ∀ c, (f c).id = c.id) (constraints : List (Constraint α)) :
    (modifyConstraint id f constraints).map (·.id.raw) = constraints.map (·.id.raw) := by
  induction constraints with
  | nil => rfl
  | cons c rest ih =>
    unfold modifyConstraint
    split
    · simp only [List.map_cons, hf]
    · simp only [List.map_cons, ih]

theorem arena_editConstraint? {id : ConstraintId} {f : Constraint α → Constraint α}
    (ht : s.editConstraint? id f = some t) (hf : ∀ c, (f c).id = c.id) : t.arena = s.arena := by
  obtain ⟨_, -, rfl⟩ := Option.map_eq_some_iff.mp ht
  simp only [arena, ids_modifyConstraint id hf]

theorem arena_editConstraint {id : ConstraintId} {f : Constraint α → Constraint α}
    (ht : s.editConstraint id f = .ok t) (hf : ∀ c, (f c).id = c.id) : t.arena = s.arena := by
  unfold editConstraint at ht
  split at ht
  next u hu =>
    cases ht
    exact arena_editConstraint? hu hf
  next => cases ht

theorem arena_setValue {id : ConstraintId} {value : α} (ht : s.setValue id value = .ok t) :
    t.arena = s.arena := by
  unfold setValue at ht
  split at ht
  next => cases ht
  next =>
    split at ht
    next => cases ht
    next => exact arena_editConstraint ht fun _ => rfl

/-! ### Removing -/

theorem evolves_keepConstraints {constraints : List (Constraint α)}
    (hsub : constraints.Sublist s.constraints) :
    s.Evolves { s with constraints := constraints } where
  wellFormed h := WellFormed.keepConstraints h (hsub.map _)
  removed := List.Subset.refl _
  nextEntity := Nat.le_refl _
  nextConstraint := Nat.le_refl _

theorem evolves_purge (s : Sketch α) : s.Evolves s.purge.2 := by
  refine evolves_keepConstraints ?_
  show (s.constraints.partition s.isDangling).2.Sublist s.constraints
  rw [List.partition_eq_filter_filter]
  exact List.filter_sublist

theorem evolves_removeConstraint? {id : ConstraintId} {c : Constraint α}
    (ht : s.removeConstraint? id = some (c, t)) : s.Evolves t := by
  obtain ⟨_, -, hct⟩ := Option.map_eq_some_iff.mp ht
  cases hct
  exact evolves_keepConstraints List.eraseP_sublist

/-- Taking out entities remembers their ids, if they are live in a well-formed arena. -/
theorem evolves_takeOut {entities : List (Entity α)} {gone : List Nat}
    (hsub : entities.Sublist s.entities)
    (hlive : s.WellFormed → ∀ raw ∈ gone, raw ∈ s.entities.map Entity.raw)
    (hgone : s.WellFormed → ∀ raw ∈ gone, raw ∉ entities.map Entity.raw) :
    s.Evolves ({ s with removed := noteRemoved s.removed gone }.withEntities entities) where
  wellFormed h := WellFormed.takeOut h hsub (hlive h) (hgone h)
  removed := fun _ hraw => (mem_noteRemoved s.removed gone).mpr (Or.inl hraw)
  nextEntity := Nat.le_refl _
  nextConstraint := Nat.le_refl _

theorem evolves_removePoint {id : PointId} {p : Point α} (ht : s.removePoint id = .ok (p, t)) :
    s.Evolves t := by
  unfold removePoint at ht
  split at ht
  next => cases ht
  next q hq =>
    cases ht
    refine evolves_takeOut List.filter_sublist ?_ ?_
    · intro h raw hraw
      rcases List.mem_cons.mp hraw with rfl | hdependent
      · obtain ⟨hmem, rfl⟩ := h.point?_eq_some_iff.mp hq
        exact List.mem_map_of_mem (f := Entity.raw) hmem
      · obtain ⟨e, he, rfl⟩ := List.mem_map.mp hdependent
        exact List.mem_map_of_mem (List.mem_filter.mp he).1
    · intro _ raw hraw hkept
      obtain ⟨e, he, rfl⟩ := List.mem_map.mp hkept
      exact of_decide_eq_true (List.mem_filter.mp he).2 hraw

theorem evolves_removeEntity {e : EntityRef} (ht : s.removeEntity e = .ok t) : s.Evolves t := by
  unfold removeEntity at ht
  split at ht
  next => cases ht
  next place hplace =>
    split at ht
    next =>
      cases ht
      refine evolves_takeOut (List.eraseIdx_sublist ..) ?_ ?_
      · intro h raw hin
        rw [List.mem_singleton.mp hin]
        exact List.mem_of_getElem? ((h.index_iff e.raw place).mp hplace)
      · -- the id stands at one place only
        intro h raw hin hkept
        obtain ⟨d, hd, hdraw⟩ := List.mem_map.mp hkept
        obtain ⟨other, hne, hother⟩ := List.mem_eraseIdx_iff_getElem?.mp hd
        have hfound := h.index_of_getElem? hother
        rw [hdraw, List.mem_singleton.mp hin, hplace] at hfound
        exact hne (Option.some.inj hfound).symm
    next => cases ht

end Sketch

end PlaneSketch
