import PlaneSketch.Proofs.Finite
import PlaneSketch.Proofs.Removal
import PlaneSketch.Sketch.InPlace

/-!
# Refused edits

An edit that is refused leaves the sketch as it was, although it works on the sketch in place and
may stop anywhere: nothing is written before the last check. The one exception is a circle or an
arc whose center is there and whose numbers are not accepted. It has taken an id by then, and that
id stays unused for good: no entity ever has it, and it is never noted as removed.
-/

namespace PlaneSketch

variable {α β γ : Type}

open Sketch

/-! ### Runs of steps -/

namespace Edit

variable (s : Sketch α)

theorem on_get : (get : Edit α (Sketch α)).on s = (.ok s, s) := rfl

theorem on_ofExcept (x : Except (Fault α) β) : (ofExcept x : Edit α β).on s = (x, s) := by
  cases x <;> rfl

theorem on_bind (edit : Edit α β) (next : β → Edit α γ) :
    (edit >>= next).on s =
      match edit.on s with
      | (.ok b, t) => (next b).on t
      | (.error fault, t) => (.error fault, t) := by
  unfold on
  rw [ExceptT.run_bind, StateT.run_bind]
  show (match edit.run.run s with | (x, t) => _) = _
  rcases edit.run.run s with ⟨_ | _, _⟩ <;> rfl

theorem on_bind_ok {edit : Edit α β} {b : β} {s t : Sketch α} (h : edit.on s = (.ok b, t))
    (next : β → Edit α γ) : (edit >>= next).on s = (next b).on t := by
  rw [on_bind, h]

theorem on_require (e : EntityRef) :
    (require e).on s = if s.contains e then (.ok ⟨⟩, s) else (.error (.entityNotFound e), s) := by
  unfold require
  rw [on_bind_ok (on_get s)]
  cases s.contains e <;> rfl

theorem on_allocate :
    allocate.on s = (.ok s.nextEntity, { s with nextEntity := s.nextEntity + 1 }) := rfl

/-! ### Edits of what is there -/

/-- What an edit that writes last makes of a sketch: its answer and the new sketch, or a fault and
the sketch as it was. -/
def orKeep (s : Sketch α) :
    Except (Fault α) (β × Sketch α) → Except (Fault α) β × Sketch α
  | .ok (b, t) => (.ok b, t)
  | .error fault => (.error fault, s)

theorem modifyConstraint_of_find? {id : ConstraintId} {c : Constraint α}
    {constraints : List (Constraint α)} (h : constraints.find? (·.id = id) = some c)
    (f : Constraint α → Constraint α) :
    modifyConstraint id (fun _ => f c) constraints = modifyConstraint id f constraints := by
  induction constraints with
  | nil => rfl
  | cons d rest ih =>
    by_cases hd : d.id = id
    · rw [List.find?_cons_of_pos (by simpa using hd)] at h
      cases h
      simp only [modifyConstraint, if_pos hd]
    · rw [List.find?_cons_of_neg (by simpa using hd)] at h
      simp only [modifyConstraint, if_neg hd, ih h]

theorem on_requireConstraint (id : ConstraintId) :
    (requireConstraint id).on s =
      match s.constraint? id with
      | some c => (.ok c, s)
      | none => (.error (.constraintNotFound id), s) := by
  unfold requireConstraint
  rw [on_bind_ok (on_get s)]
  cases s.constraint? id <;> rfl

/-- Reading a constraint and writing it back changed is changing it where it stands. -/
theorem on_store_changed (id : ConstraintId) {f : Constraint α → Constraint α}
    (hf : ∀ c, (f c).id = c.id) :
    (requireConstraint id >>= fun c => store (f c)).on s =
      orKeep s ((s.editConstraint id f).map (⟨⟩, ·)) := by
  rw [on_bind, on_requireConstraint, editConstraint, editConstraint?]
  cases hc : s.constraint? id with
  | none => rfl
  | some c =>
    have hfound : s.constraints.find? (·.id = id) = some c := hc
    -- the constraint is written back under its own id, which is why `f` must keep it
    have hid : (f c).id = id := (hf c).trans (by simpa using List.find?_some hfound)
    have hwritten : modifyConstraint (f c).id (fun _ => f c) s.constraints =
        modifyConstraint id f s.constraints := by
      rw [hid, modifyConstraint_of_find? hfound]
    exact Prod.ext rfl (congrArg (fun written => { s with constraints := written }) hwritten)

theorem on_setEnabled (id : ConstraintId) (enabled : Bool) :
    (setEnabled id enabled).on s = orKeep s ((s.setEnabled id enabled).map (⟨⟩, ·)) :=
  on_store_changed s id fun _ => rfl

theorem on_setDriving (id : ConstraintId) (driving : Bool) :
    (setDriving id driving).on s = orKeep s ((s.setDriving id driving).map (⟨⟩, ·)) :=
  on_store_changed s id fun _ => rfl

theorem on_setValue (id : ConstraintId) (value : α) :
    (setValue id value).on s = orKeep s ((s.setValue id value).map (⟨⟩, ·)) := by
  unfold setValue Sketch.setValue
  rw [on_bind, on_requireConstraint]
  cases hc : s.constraint? id with
  | none => rfl
  | some c =>
    cases hr : c.requirement.withValue? value with
    | none =>
      simp only [hr]
      rfl
    | some r =>
      have hstore := on_store_changed s id (f := fun c => { c with requirement := r }) fun _ => rfl
      rw [on_bind, on_requireConstraint, hc] at hstore
      simpa only [hr] using hstore

theorem on_setPosition (id : PointId) (position : Vec α) :
    (setPosition id position).on s = orKeep s ((s.setPosition id position).map (⟨⟩, ·)) := by
  unfold setPosition Sketch.setPosition
  rw [on_bind_ok (on_get s)]
  cases s.editPoint? id fun p => { p with position := position } <;> rfl

theorem on_removeConstraint (id : ConstraintId) :
    (removeConstraint id).on s =
      (.ok ((s.removeConstraint? id).map (·.1)), ((s.removeConstraint? id).map (·.2)).getD s) := by
  unfold removeConstraint removeConstraint? constraint?
  rw [on_bind_ok (on_get s), List.find?_eq_bind_findIdx?_getElem?, List.eraseP_eq_eraseIdx]
  cases hplace : s.constraints.findIdx? (·.id = id) with
  | none => rfl
  | some place =>
    have hlt : place < s.constraints.length := (List.findIdx?_eq_some_iff_getElem.mp hplace).1
    simp only [Option.bind_some, List.getElem?_eq_getElem hlt]
    rfl

theorem on_removePoint (id : PointId) :
    (removePoint id).on s = orKeep s (s.removePoint id) := by
  unfold removePoint Sketch.removePoint
  rw [on_bind_ok (on_get s)]
  cases s.point? id with
  | none => rfl
  | some p =>
    have hstays : (fun e : Entity α => e.raw ≠ id.raw && e.raw ∉ s.dependents id) =
        fun e => decide (e.raw ∉ id.raw :: s.dependents id) := by
      funext e
      simp only [List.mem_cons, not_or, Bool.decide_and]
    simp only [← hstays]
    rfl

theorem on_removeEntity (e : EntityRef) :
    (removeEntity e).on s = orKeep s ((s.removeEntity e).map (⟨⟩, ·)) := by
  unfold removeEntity Sketch.removeEntity
  rw [on_bind_ok (on_get s)]
  cases s.index[e.raw]? with
  | none => rfl
  | some place =>
    simp only
    rw [on_bind, on_require]
    cases s.contains e <;> rfl

/-! ### Additions -/

theorem on_addLine (start stop : PointId) : (addLine start stop).on s = s.addLine start stop := by
  unfold addLine Sketch.addLine
  rw [on_bind, on_require]
  cases s.contains (.point start) with
  | false => rfl
  | true =>
    simp only [if_true, on_bind, on_require]
    cases s.contains (.point stop) <;> rfl

variable [Scalar α]

theorem on_addCircle (center : PointId) (radius : α) :
    (addCircle center radius).on s = s.addCircle center radius := by
  unfold addCircle Sketch.addCircle
  rw [on_bind, on_require]
  cases s.contains (.point center) with
  | false => rfl
  | true =>
    simp only [if_true, on_bind, on_allocate, on_ofExcept]
    cases checkRadius (.circle ⟨s.nextEntity⟩) radius <;> rfl

theorem on_addArc (center : PointId) (radius startAngle stopAngle : α) :
    (addArc center radius startAngle stopAngle).on s =
      s.addArc center radius startAngle stopAngle := by
  unfold addArc Sketch.addArc checkArc
  rw [on_bind, on_require]
  cases s.contains (.point center) with
  | false => rfl
  | true =>
    simp only [if_true, on_bind, on_allocate, on_ofExcept]
    cases checkRadius (.arc ⟨s.nextEntity⟩) radius with
    | error => rfl
    | ok =>
      cases checkFinite (.arc ⟨s.nextEntity⟩) .startAngle startAngle with
      | error => rfl
      | ok => cases checkFinite (.arc ⟨s.nextEntity⟩) .stopAngle stopAngle <;> rfl

theorem on_fixPoint (id : PointId) : (fixPoint id).on s = s.fixPoint id := by
  unfold fixPoint Sketch.fixPoint
  rw [on_bind_ok (on_get s)]
  cases s.position? id <;> rfl

/-! ### Whether an edit went through -/

/-- Does an edit, and says whether it went through. -/
def attempt (edit : Edit α β) (s : Sketch α) : Bool × Sketch α :=
  ((edit.on s).1.isOk, (edit.on s).2)

variable {s t : Sketch α}

omit [Scalar α] in
theorem attempt_of_orKeep {edit : Edit α β} {x : Except (Fault α) (β × Sketch α)}
    (h : edit.on s = orKeep s x) :
    edit.attempt s = (x.isOk, (x.toOption.map (·.2)).getD s) := by
  unfold attempt
  rw [h]
  cases x <;> rfl

omit [Scalar α] in
theorem attempt_of_orKeep_unit {edit : Edit α PUnit} {x : Except (Fault α) (Sketch α)}
    (h : edit.on s = orKeep s (x.map (⟨⟩, ·))) : edit.attempt s = (x.isOk, x.toOption.getD s) := by
  rw [attempt_of_orKeep h]
  cases x <;> rfl

omit [Scalar α] in
theorem eq_of_attempt {edit : Edit α β} {x : Except (Fault α) (β × Sketch α)}
    (h : edit.on s = orKeep s x) (hfails : edit.attempt s = (false, t)) : t = s := by
  rw [attempt_of_orKeep h] at hfails
  cases x with
  | ok => cases hfails
  | error => exact (Prod.mk.inj hfails).2.symm

omit [Scalar α] in
theorem of_attempt {edit : Edit α β} (hfails : edit.attempt s = (false, t)) :
    ∃ fault, edit.on s = (.error fault, t) := by
  unfold attempt at hfails
  rcases hrun : edit.on s with ⟨fault | _, _⟩
  · rw [hrun] at hfails
    exact ⟨fault, congrArg _ (Prod.mk.inj hfails).2⟩
  · rw [hrun] at hfails
    cases hfails

end Edit

/-! ### Where an addition stops -/

variable [Scalar α] {s t : Sketch α}

namespace Sketch

/-- What is accepted for a radius. -/
def IsRadius (radius : α) : Prop := Scalar.isFinite radius = true ∧ ¬radius ≤ 0.0

theorem checkRadius_eq_ok_iff (e : EntityRef) (radius : α) :
    checkRadius e radius = .ok () ↔ IsRadius radius := by
  unfold checkRadius IsRadius
  rw [bind_eq_ok_iff, checkFinite_eq_ok_iff]
  refine and_congr_right fun _ => ?_
  by_cases hradius : radius ≤ 0.0
  · rw [if_pos hradius]
    exact iff_of_false nofun (not_not_intro hradius)
  · rw [if_neg hradius]
    exact iff_of_true rfl hradius

theorem checkArc_eq_ok_iff (e : EntityRef) (radius startAngle stopAngle : α) :
    checkArc e radius startAngle stopAngle = .ok () ↔
      IsRadius radius ∧ Scalar.isFinite startAngle = true ∧ Scalar.isFinite stopAngle = true := by
  unfold checkArc
  rw [bind_eq_ok_iff, bind_eq_ok_iff, checkRadius_eq_ok_iff, checkFinite_eq_ok_iff,
    checkFinite_eq_ok_iff]

omit [Scalar α] in
theorem eq_of_addLine {start stop : PointId} {fault : Fault α}
    (h : s.addLine start stop = (.error fault, t)) : t = s := by
  unfold addLine at h
  split at h
  · exact (Prod.mk.inj h).2.symm
  · split at h
    · exact (Prod.mk.inj h).2.symm
    · cases h

theorem eq_of_fixPoint {id : PointId} {fault : Fault α}
    (h : s.fixPoint id = (.error fault, t)) : t = s := by
  unfold fixPoint at h
  split at h
  · exact (Prod.mk.inj h).2.symm
  · cases h

theorem addCircle_cases {center : PointId} {radius : α} {fault : Fault α}
    (h : s.addCircle center radius = (.error fault, t)) :
    t = s ∨ s.contains (.point center) = true ∧ ¬IsRadius radius := by
  unfold addCircle at h
  split at h
  · exact Or.inl (Prod.mk.inj h).2.symm
  next hfound =>
    right
    refine ⟨by simpa using hfound, fun hnumbers => ?_⟩
    rw [(checkRadius_eq_ok_iff _ radius).mpr hnumbers] at h
    cases h

theorem addArc_cases {center : PointId} {radius startAngle stopAngle : α} {fault : Fault α}
    (h : s.addArc center radius startAngle stopAngle = (.error fault, t)) :
    t = s ∨ s.contains (.point center) = true ∧
      ¬(IsRadius radius ∧ Scalar.isFinite startAngle = true ∧
        Scalar.isFinite stopAngle = true) := by
  unfold addArc at h
  split at h
  · exact Or.inl (Prod.mk.inj h).2.symm
  next hfound =>
    right
    refine ⟨by simpa using hfound, fun hnumbers => ?_⟩
    rw [(checkArc_eq_ok_iff _ radius startAngle stopAngle).mpr hnumbers] at h
    cases h

theorem exists_addCircle {center : PointId} {radius : α}
    (hfound : s.contains (.point center) = true)
    (hnumbers : ¬IsRadius radius) :
    ∃ fault, s.addCircle center radius = (.error fault, s.skipId) := by
  unfold addCircle
  rw [hfound]
  cases hcheck : checkRadius (.circle ⟨s.nextEntity⟩) radius with
  | ok => exact absurd ((checkRadius_eq_ok_iff ..).mp hcheck) hnumbers
  | error fault => exact ⟨fault, rfl⟩

theorem exists_addArc {center : PointId} {radius startAngle stopAngle : α}
    (hfound : s.contains (.point center) = true)
    (hnumbers : ¬(IsRadius radius ∧ Scalar.isFinite startAngle = true ∧
      Scalar.isFinite stopAngle = true)) :
    ∃ fault, s.addArc center radius startAngle stopAngle = (.error fault, s.skipId) := by
  unfold addArc
  rw [hfound]
  cases hcheck : checkArc (.arc ⟨s.nextEntity⟩) radius startAngle stopAngle with
  | ok => exact absurd ((checkArc_eq_ok_iff ..).mp hcheck) hnumbers
  | error fault => exact ⟨fault, rfl⟩

end Sketch

namespace Operation

/-- Does an operation that can be refused in place, and says whether it went through. The others
are done as they are. -/
def inPlace : Operation α → Sketch α → Bool × Sketch α
  | .addLine start stop, s => (Edit.addLine start stop).attempt s
  | .addCircle center radius, s => (Edit.addCircle center radius).attempt s
  | .addArc center radius startAngle stopAngle, s =>
    (Edit.addArc center radius startAngle stopAngle).attempt s
  | .fixPoint id, s => (Edit.fixPoint id).attempt s
  | .setPosition id position, s => (Edit.setPosition id position).attempt s
  | .setEnabled id enabled, s => (Edit.setEnabled id enabled).attempt s
  | .setDriving id driving, s => (Edit.setDriving id driving).attempt s
  | .setValue id value, s => (Edit.setValue id value).attempt s
  | .removePoint id, s => (Edit.removePoint id).attempt s
  | .removeLine id, s => (Edit.removeEntity (.line id)).attempt s
  | .removeCircle id, s => (Edit.removeEntity (.circle id)).attempt s
  | .removeArc id, s => (Edit.removeEntity (.arc id)).attempt s
  | .removeConstraint id, s =>
    let (answer, t) := (Edit.removeConstraint id).on s
    (answer.toOption.join.isSome, t)
  | op, s => (true, op.apply s)

theorem inPlace_removeConstraint (id : ConstraintId) (s : Sketch α) :
    (removeConstraint id).inPlace s =
      ((s.removeConstraint? id).isSome, ((s.removeConstraint? id).map (·.2)).getD s) := by
  have hrun := Edit.on_removeConstraint s id
  unfold inPlace
  simp only [hrun]
  cases s.removeConstraint? id <;> rfl

/-- What is done in place is what the operation makes of the sketch. -/
theorem inPlace_snd (op : Operation α) (s : Sketch α) : (op.inPlace s).2 = op.apply s := by
  cases op with
  | addLine => exact congrArg Prod.snd (Edit.on_addLine s ..)
  | addCircle => exact congrArg Prod.snd (Edit.on_addCircle s ..)
  | addArc => exact congrArg Prod.snd (Edit.on_addArc s ..)
  | fixPoint => exact congrArg Prod.snd (Edit.on_fixPoint s ..)
  | setPosition => exact congrArg Prod.snd (Edit.attempt_of_orKeep_unit (Edit.on_setPosition s ..))
  | setEnabled => exact congrArg Prod.snd (Edit.attempt_of_orKeep_unit (Edit.on_setEnabled s ..))
  | setDriving => exact congrArg Prod.snd (Edit.attempt_of_orKeep_unit (Edit.on_setDriving s ..))
  | setValue => exact congrArg Prod.snd (Edit.attempt_of_orKeep_unit (Edit.on_setValue s ..))
  | removePoint => exact congrArg Prod.snd (Edit.attempt_of_orKeep (Edit.on_removePoint s ..))
  | removeLine | removeCircle | removeArc =>
    exact congrArg Prod.snd (Edit.attempt_of_orKeep_unit (Edit.on_removeEntity s ..))
  | removeConstraint id => exact congrArg Prod.snd (inPlace_removeConstraint id s)
  | addPoint | addFixedPoint | addConstraint | applySuggestion | purge | solve | editPoint
  | editLine | editConstraint => rfl

/-- Whether an addition finds its center and then stops at a number. -/
def StopsAtNumber (s : Sketch α) : Operation α → Prop
  | .addCircle center radius => s.contains (.point center) = true ∧ ¬IsRadius radius
  | .addArc center radius startAngle stopAngle =>
    s.contains (.point center) = true ∧
      ¬(IsRadius radius ∧ Scalar.isFinite startAngle = true ∧ Scalar.isFinite stopAngle = true)
  | _ => False

theorem inPlace_of_stopsAtNumber {op : Operation α} (h : op.StopsAtNumber s) :
    op.inPlace s = (false, s.skipId) := by
  cases op with
  | addCircle center radius =>
    obtain ⟨fault, hfault⟩ := exists_addCircle h.1 h.2
    show (Edit.addCircle center radius).attempt s = _
    rw [Edit.attempt, Edit.on_addCircle, hfault]
    rfl
  | addArc center radius startAngle stopAngle =>
    obtain ⟨fault, hfault⟩ := exists_addArc h.1 h.2
    show (Edit.addArc center radius startAngle stopAngle).attempt s = _
    rw [Edit.attempt, Edit.on_addArc, hfault]
    rfl
  | _ => exact h.elim

theorem inPlace_cases {op : Operation α} (h : op.inPlace s = (false, t)) :
    t = s ∨ op.StopsAtNumber s := by
  cases op with
  | addLine start stop =>
    obtain ⟨_, hfault⟩ := Edit.of_attempt h
    exact Or.inl (eq_of_addLine (Edit.on_addLine s .. ▸ hfault))
  | addCircle center radius =>
    obtain ⟨_, hfault⟩ := Edit.of_attempt h
    exact addCircle_cases (Edit.on_addCircle s .. ▸ hfault)
  | addArc center radius startAngle stopAngle =>
    obtain ⟨_, hfault⟩ := Edit.of_attempt h
    exact addArc_cases (Edit.on_addArc s .. ▸ hfault)
  | fixPoint id =>
    obtain ⟨_, hfault⟩ := Edit.of_attempt h
    exact Or.inl (eq_of_fixPoint (Edit.on_fixPoint s .. ▸ hfault))
  | setPosition => exact Or.inl (Edit.eq_of_attempt (Edit.on_setPosition s ..) h)
  | setEnabled => exact Or.inl (Edit.eq_of_attempt (Edit.on_setEnabled s ..) h)
  | setDriving => exact Or.inl (Edit.eq_of_attempt (Edit.on_setDriving s ..) h)
  | setValue => exact Or.inl (Edit.eq_of_attempt (Edit.on_setValue s ..) h)
  | removePoint => exact Or.inl (Edit.eq_of_attempt (Edit.on_removePoint s ..) h)
  | removeLine | removeCircle | removeArc =>
    exact Or.inl (Edit.eq_of_attempt (Edit.on_removeEntity s ..) h)
  | removeConstraint id =>
    rw [inPlace_removeConstraint] at h
    cases hremoved : s.removeConstraint? id with
    | none =>
      rw [hremoved] at h
      exact Or.inl (Prod.mk.inj h).2.symm
    | some =>
      rw [hremoved] at h
      cases h
  | addPoint | addFixedPoint | addConstraint | applySuggestion | purge | solve | editPoint
  | editLine | editConstraint => cases h

end Operation

/-! ### Ids that are used up -/

namespace Sketch

/-- Every id in use after a change was in use before it or was still to be given out. -/
def Recruits (s t : Sketch α) : Prop :=
  ∀ raw ∈ t.arena.raws, raw ∈ s.arena.raws ∨ s.nextEntity ≤ raw

omit [Scalar α] in
theorem recruits_of_subset (h : t.arena.raws ⊆ s.arena.raws) : s.Recruits t :=
  fun _ hraw => Or.inl (h hraw)

omit [Scalar α] in
theorem recruits_of_arena (h : t.arena = s.arena) : s.Recruits t :=
  recruits_of_subset (congrArg Arena.raws h ▸ List.Subset.refl _)

omit [Scalar α] in
theorem Removes.recruits {e : EntityRef} (h : s.Removes e t) : s.Recruits t := by
  refine recruits_of_subset ?_
  show t.entities.map Entity.raw ⊆ s.entities.map Entity.raw
  rw [h.entities]
  exact (List.filter_sublist.map _).subset

theorem recruits_push {make : Nat → Entity α} (hmake : (make s.nextEntity).raw = s.nextEntity) :
    s.Recruits (s.push make) := by
  intro raw hraw
  rw [raws_push s hmake, List.mem_append, List.mem_singleton] at hraw
  exact hraw.imp_right fun h => Nat.le_of_eq h.symm

omit [Scalar α] in
theorem recruits_getD {t? : Option (Sketch α)} (h : ∀ t, t? = some t → s.Recruits t) :
    s.Recruits (t?.getD s) := by
  cases t? with
  | none => exact recruits_of_arena rfl
  | some t => exact h t rfl

/-- An id that was given out, but belongs to no entity and to no removed one. -/
structure Spent (s : Sketch α) (raw : Nat) : Prop where
  below : raw < s.nextEntity
  unused : raw ∉ s.arena.raws
  notRemoved : raw ∉ s.removed

omit [Scalar α] in
theorem Spent.entity? {raw : Nat} (h : s.Spent raw) (hs : s.WellFormed) : s.entity? raw = none :=
  hs.entity?_eq_none_iff.mpr h.unused

omit [Scalar α] in
/-- The id that an addition takes and does not use. -/
theorem WellFormed.spent_skipId (hs : s.WellFormed) : s.skipId.Spent s.nextEntity where
  below := Nat.lt_succ_self _
  unused h := Nat.lt_irrefl _ (hs.raws_below _ h)
  notRemoved h := Nat.lt_irrefl _ (hs.removed_below _ h)

end Sketch

namespace Operation

theorem recruits_apply (op : Operation α) (hs : s.WellFormed) : s.Recruits (op.apply s) := by
  cases op with
  | addPoint | addFixedPoint => exact recruits_push rfl
  | addLine start stop =>
    show s.Recruits (s.addLine start stop).2
    unfold Sketch.addLine
    split
    · exact recruits_of_arena rfl
    · split
      · exact recruits_of_arena rfl
      · exact recruits_push rfl
  | addCircle center radius =>
    show s.Recruits (s.addCircle center radius).2
    unfold Sketch.addCircle
    split
    · exact recruits_of_arena rfl
    · split
      · exact recruits_of_subset (List.Subset.refl _)
      · exact recruits_push rfl
  | addArc center radius startAngle stopAngle =>
    show s.Recruits (s.addArc center radius startAngle stopAngle).2
    unfold Sketch.addArc
    split
    · exact recruits_of_arena rfl
    · split
      · exact recruits_of_subset (List.Subset.refl _)
      · exact recruits_push rfl
  | addConstraint | applySuggestion | purge => exact recruits_of_subset (List.Subset.refl _)
  | fixPoint id =>
    show s.Recruits (s.fixPoint id).2
    unfold Sketch.fixPoint
    split
    · exact recruits_of_arena rfl
    · exact recruits_of_subset (List.Subset.refl _)
  | setPosition id position =>
    exact recruits_getD fun t ht => recruits_of_arena (arena_setPosition (ok_of_toOption ht))
  | setEnabled | setDriving =>
    exact recruits_getD fun t ht =>
      recruits_of_arena (arena_editConstraint (ok_of_toOption ht) fun _ => rfl)
  | setValue id value =>
    exact recruits_getD fun t ht => recruits_of_arena (arena_setValue (ok_of_toOption ht))
  | removePoint id =>
    refine recruits_getD fun t ht => ?_
    obtain ⟨⟨p, _⟩, hremoved, rfl⟩ := Option.map_eq_some_iff.mp ht
    exact (hs.removes_removePoint (ok_of_toOption hremoved)).recruits
  | removeLine | removeCircle | removeArc =>
    exact recruits_getD fun t ht => (hs.removes_removeEntity (ok_of_toOption ht) nofun).recruits
  | removeConstraint id =>
    show s.Recruits (((s.removeConstraint? id).map (·.2)).getD s)
    refine recruits_getD fun t ht => ?_
    obtain ⟨⟨_, _⟩, hremoved, rfl⟩ := Option.map_eq_some_iff.mp ht
    obtain ⟨_, -, heq⟩ := Option.map_eq_some_iff.mp hremoved
    cases heq
    exact recruits_of_subset (List.Subset.refl _)
  | solve m c state =>
    show s.Recruits (s.solveFrom m c state).sketch
    rcases s.outline_solveFrom m c state with hkept | houtline
    · rw [hkept]
      exact recruits_of_arena rfl
    · have hraws := congrArg Arena.raws (arena_of_outline houtline)
      exact recruits_of_subset (hraws ▸ List.Subset.refl _)
  | editPoint id f =>
    exact recruits_getD fun t ht => recruits_of_arena (arena_editPoint? ht fun _ => rfl)
  | editLine id f =>
    exact recruits_getD fun t ht => recruits_of_arena (arena_editLine? ht fun _ => rfl)
  | editConstraint id f =>
    exact recruits_getD fun t ht => recruits_of_arena (arena_editConstraint? ht fun _ => rfl)

/-- No operation gives an id that is used up to an entity, or notes it as removed. -/
theorem spent_apply (op : Operation α) (hs : s.WellFormed) {raw : Nat} (h : s.Spent raw) :
    (op.apply s).Spent raw where
  below := Nat.lt_of_lt_of_le h.below (op.evolves_apply s).nextEntity
  -- new ids come from the counter, which is past this one
  unused hin := (op.recruits_apply hs raw hin).elim h.unused (Nat.not_le_of_lt h.below)
  notRemoved hin := by
    rcases (notes_apply op hs raw).mp hin with hremoved | hlost
    · exact h.notRemoved hremoved
    · exact h.unused (mem_lost_iff.mp hlost).1

theorem spent_run (ops : List (Operation α)) (hs : s.WellFormed) {raw : Nat} (h : s.Spent raw) :
    (run ops s).Spent raw := by
  induction ops generalizing s with
  | nil => exact h
  | cons op later ih => exact ih ((op.evolves_apply s).wellFormed hs) (op.spent_apply hs h)

/-- An operation that is refused leaves the sketch as it was, although it works in place, unless it
finds the center of a circle or an arc and stops at a number. It is refused then, and what it
leaves is the sketch with the next id given out; in a well-formed sketch no entity gets that id and
no removal notes it, whatever is done later. -/
theorem refused_inPlace (op : Operation α) (s : Sketch α) :
    (∀ t, op.inPlace s = (false, t) → ¬op.StopsAtNumber s → t = s) ∧
    (op.StopsAtNumber s →
      let t := { s with nextEntity := s.nextEntity + 1 }
      op.inPlace s = (false, t) ∧
      (s.WellFormed → ∀ later : List (Operation α),
        (run later t).entity? s.nextEntity = none ∧
          (∀ e ∈ (run later t).entities, e.raw ≠ s.nextEntity) ∧
          s.nextEntity ∉ (run later t).removed)) := by
  refine ⟨fun t h hnumbers => (inPlace_cases h).resolve_right hnumbers, fun hstops => ?_⟩
  intro t
  refine ⟨inPlace_of_stopsAtNumber hstops, ?_⟩
  intro hs later
  have ht : t.WellFormed := s.evolves_skipId.wellFormed hs
  have hspent : (run later t).Spent s.nextEntity := spent_run later ht hs.spent_skipId
  refine ⟨hspent.entity? ((evolves_run later t).wellFormed ht), ?_, hspent.notRemoved⟩
  intro e he hraw
  exact hspent.unused (hraw ▸ List.mem_map_of_mem he)

/-- A line to a point that is not there, and a circle with a negative radius. -/
theorem refused_inPlace_onePoint :
    let s : Sketch Float := run [.addPoint ⟨0.0, 0.0⟩] (empty "")
    (addLine ⟨0⟩ ⟨7⟩).inPlace s = (false, s) ∧
    (addCircle ⟨0⟩ (-1.0)).inPlace s = (false, { s with nextEntity := 2 }) ∧
    ∀ later : List (Operation Float), (run later { s with nextEntity := 2 }).entity? 1 = none := by
  intro s
  have hfails : ((addLine ⟨0⟩ ⟨7⟩).inPlace s).1 = false := by decide +kernel
  have hstops : (addCircle ⟨0⟩ (-1.0)).StopsAtNumber s := by
    refine ⟨by decide +kernel, fun h => h.2 ?_⟩
    decide +kernel
  obtain ⟨hrefused, hlater⟩ := (refused_inPlace (addCircle ⟨0⟩ (-1.0)) s).2 hstops
  refine ⟨?_, hrefused, fun later => (hlater (wellFormed_run_empty _ _) later).1⟩
  have hkept := (refused_inPlace (addLine ⟨0⟩ ⟨7⟩) s).1 _ (Prod.ext hfails rfl) id
  exact Prod.ext hfails hkept

end Operation

end PlaneSketch
