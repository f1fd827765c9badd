import PlaneSketch.Proofs.Reachable

/-!
# References between entities

No line, circle or arc outlives a point that it is built on. A constructor looks the points up, and
the removal of a point takes everything along that is built on it; nothing else changes which points
there are or what is built on them, except an edit that gives a line other ends.
-/

namespace PlaneSketch

variable {α : Type}

namespace Sketch

variable {s t : Sketch α}

/-- Every entity is built on points that are there. -/
def Grounded (s : Sketch α) : Prop :=
  ∀ e ∈ s.entities, ∀ id ∈ e.basePoints, .point id ∈ s.entities.map Entity.ref

/-- Every entity of some kinds is built on points that are there. -/
def GroundedFor (kinds : EntityRef → Prop) (s : Sketch α) : Prop :=
  ∀ e ∈ s.entities, kinds e.ref → ∀ id ∈ e.basePoints, .point id ∈ s.entities.map Entity.ref

theorem grounded_iff : s.Grounded ↔ s.GroundedFor fun _ => True :=
  ⟨fun h e he _ => h e he, fun h e he => h e he trivial⟩

theorem mem_points_iff {p : Point α} : p ∈ s.points ↔ .point p ∈ s.entities := by
  simp only [points, List.mem_filterMap]
  refine ⟨?_, fun hp => ⟨_, hp, rfl⟩⟩
  rintro ⟨_ | _ | _ | _, he, hp⟩ <;> cases hp
  exact he

theorem mem_lines_iff {l : Line} : l ∈ s.lines ↔ .line l ∈ s.entities := by
  simp only [lines, List.mem_filterMap]
  refine ⟨?_, fun hl => ⟨_, hl, rfl⟩⟩
  rintro ⟨_ | _ | _ | _, he, hl⟩ <;> cases hl
  exact he

theorem mem_circles_iff {c : Circle α} : c ∈ s.circles ↔ .circle c ∈ s.entities := by
  simp only [circles, List.mem_filterMap]
  refine ⟨?_, fun hc => ⟨_, hc, rfl⟩⟩
  rintro ⟨_ | _ | _ | _, he, hc⟩ <;> cases hc
  exact he

theorem mem_arcs_iff {a : Arc α} : a ∈ s.arcs ↔ .arc a ∈ s.entities := by
  simp only [arcs, List.mem_filterMap]
  refine ⟨?_, fun ha => ⟨_, ha, rfl⟩⟩
  rintro ⟨_ | _ | _ | _, he, ha⟩ <;> cases ha
  exact he

theorem WellFormed.line?_eq_some_iff (hs : s.WellFormed) {id : LineId} {l : Line} :
    s.line? id = some l ↔ .line l ∈ s.entities ∧ l.id = id := by
  have hraw : l.id.raw = id.raw ↔ l.id = id := by rw [LineId.mk.injEq]
  refine Iff.trans ?_ (hs.entity?_eq_some_iff.trans (and_congr_right fun _ => hraw))
  unfold line?
  split
  next k hk => rw [hk, Option.some.injEq, Option.some.injEq, Entity.line.injEq]
  next hne => exact iff_of_false nofun (hne l)

theorem WellFormed.circle?_eq_some_iff (hs : s.WellFormed) {id : CircleId} {c : Circle α} :
    s.circle? id = some c ↔ .circle c ∈ s.entities ∧ c.id = id := by
  have hraw : c.id.raw = id.raw ↔ c.id = id := by rw [CircleId.mk.injEq]
  refine Iff.trans ?_ (hs.entity?_eq_some_iff.trans (and_congr_right fun _ => hraw))
  unfold circle?
  split
  next d hd => rw [hd, Option.some.injEq, Option.some.injEq, Entity.circle.injEq]
  next hne => exact iff_of_false nofun (hne c)

theorem WellFormed.arc?_eq_some_iff (hs : s.WellFormed) {id : ArcId} {a : Arc α} :
    s.arc? id = some a ↔ .arc a ∈ s.entities ∧ a.id = id := by
  have hraw : a.id.raw = id.raw ↔ a.id = id := by rw [ArcId.mk.injEq]
  refine Iff.trans ?_ (hs.entity?_eq_some_iff.trans (and_congr_right fun _ => hraw))
  unfold arc?
  split
  next d hd => rw [hd, Option.some.injEq, Option.some.injEq, Entity.arc.injEq]
  next hne => exact iff_of_false nofun (hne a)

/-- The id belongs to a point of the sketch, and a look-up finds it. -/
def Resolves (s : Sketch α) (id : PointId) : Prop :=
  ∃ p ∈ s.points, p.id = id ∧ s.point? id = some p

/-- A look-up finds exactly the points that are there. -/
theorem WellFormed.resolves_iff (hs : s.WellFormed) {id : PointId} :
    s.Resolves id ↔ .point id ∈ s.entities.map Entity.ref := by
  constructor
  · rintro ⟨p, hp, rfl, -⟩
    exact List.mem_map_of_mem (mem_points_iff.mp hp)
  · intro hid
    obtain ⟨d, hd, href⟩ := List.mem_map.mp hid
    cases d with
    | point p =>
      have hp : p.id = id := EntityRef.point.inj href
      exact ⟨p, mem_points_iff.mpr hd, hp, hs.point?_eq_some_iff.mpr ⟨hd, hp⟩⟩
    | line | circle | arc => cases href

variable {kinds : EntityRef → Prop}

theorem GroundedFor.resolves (h : s.GroundedFor kinds) (hs : s.WellFormed) {e : Entity α}
    (he : e ∈ s.entities) (hkind : kinds e.ref) {id : PointId} (hid : id ∈ e.basePoints) :
    s.Resolves id :=
  hs.resolves_iff.mpr (h e he hkind id hid)

theorem Grounded.resolves (h : s.Grounded) (hs : s.WellFormed) {e : Entity α}
    (he : e ∈ s.entities) {id : PointId} (hid : id ∈ e.basePoints) : s.Resolves id :=
  (grounded_iff.mp h).resolves hs he trivial hid

theorem mem_refs_of_contains {e : EntityRef} (h : s.contains e = true) :
    e ∈ s.entities.map Entity.ref := by
  obtain ⟨d, hd, href⟩ := Option.any_eq_true _ _ |>.mp h
  obtain ⟨place, -, hplace⟩ := Option.bind_eq_some_iff.mp hd
  rw [← of_decide_eq_true href]
  exact List.mem_map_of_mem (List.mem_of_getElem? hplace)

/-! ### Changes that keep the references -/

/-- What an entity is and what it is built on decide. -/
theorem GroundedFor.of_footings (h : s.GroundedFor kinds)
    (hst : s.entities.map (fun e => (e.ref, e.basePoints)) =
      t.entities.map fun e => (e.ref, e.basePoints)) : t.GroundedFor kinds := by
  have hrefs : s.entities.map Entity.ref = t.entities.map Entity.ref := by
    simpa only [List.map_map, Function.comp_def] using congrArg (List.map Prod.fst) hst
  intro e he hkind id hid
  have hfooting : (e.ref, e.basePoints) ∈ s.entities.map fun e => (e.ref, e.basePoints) := by
    rw [hst]
    exact List.mem_map_of_mem he
  obtain ⟨d, hd, hde⟩ := List.mem_map.mp hfooting
  obtain ⟨href, hbase⟩ := Prod.mk.inj hde
  rw [← hrefs]
  refine h d hd ?_ id ?_
  · rwa [href]
  · rwa [hbase]

theorem GroundedFor.of_outline (h : s.GroundedFor kinds) (hst : s.outline = t.outline) :
    t.GroundedFor kinds := by
  refine h.of_footings ?_
  have hfootings (u : Sketch α) : u.entities.map (fun e => (e.ref, e.basePoints)) =
      u.outline.entities.map fun e => (e.ref, e.basePoints) := by
    simp only [outline, List.map_map, Function.comp_def, Entity.outline_ref,
      Entity.outline_basePoints]
  rw [hfootings, hfootings, hst]

/-- Only the entity that changes has to be looked at. -/
theorem GroundedFor.modifyEntity (h : s.GroundedFor kinds) {raw : Nat} {f : Entity α → Entity α}
    (href : ∀ e, (f e).ref = e.ref)
    (hbase : ∀ e ∈ s.entities, s.entity? raw = some e → kinds e.ref →
      ∀ id ∈ (f e).basePoints, .point id ∈ s.entities.map Entity.ref) :
    (s.modifyEntity raw f).GroundedFor kinds := by
  unfold Sketch.modifyEntity
  split
  next place hplace =>
    intro e he hkind id hid
    show _ ∈ (s.entities.modify place f).map Entity.ref
    rw [map_modify_of_keeps href]
    obtain ⟨other, hother⟩ := List.getElem?_of_mem he
    rw [List.getElem?_modify] at hother
    obtain ⟨d, hd, rfl⟩ := Option.map_eq_some_iff.mp hother
    split at hkind
    next hsame =>
      rw [if_pos hsame] at hid
      subst hsame
      refine hbase d (List.mem_of_getElem? hd) ?_ (by rwa [href] at hkind) id hid
      rw [entity?, hplace, Option.bind_some, hd]
    next hne =>
      rw [if_neg hne] at hid
      exact h d (List.mem_of_getElem? hd) hkind id hid
  next => exact h

theorem GroundedFor.editPoint? (h : s.GroundedFor kinds) {id : PointId} {f : Point α → Point α}
    (ht : s.editPoint? id f = some t) (hf : ∀ p, (f p).id = p.id) : t.GroundedFor kinds := by
  obtain ⟨_, -, rfl⟩ := Option.map_eq_some_iff.mp ht
  refine h.modifyEntity ?_ ?_
  · intro e
    cases e with
    | point p => exact congrArg EntityRef.point (hf p)
    | line | circle | arc => rfl
  · intro e he _ hkind
    cases e with
    | point => exact nofun
    | line | circle | arc => exact h _ he hkind

/-- A line may get other ends if these are points of the sketch, or if lines do not matter. -/
theorem GroundedFor.editLine? (h : s.GroundedFor kinds) {id : LineId} {f : Line → Line}
    (ht : s.editLine? id f = some t) (hf : ∀ l, (f l).id = l.id)
    (hends : ∀ l, s.line? id = some l → kinds (.line l.id) →
      ∀ p ∈ [(f l).start, (f l).stop], .point p ∈ s.entities.map Entity.ref) :
    t.GroundedFor kinds := by
  obtain ⟨_, -, rfl⟩ := Option.map_eq_some_iff.mp ht
  refine h.modifyEntity ?_ ?_
  · intro e
    cases e with
    | line l => exact congrArg EntityRef.line (hf l)
    | point | circle | arc => rfl
  · intro e he hfound hkind
    cases e with
    | line l =>
      refine hends l ?_ hkind
      rw [line?, hfound]
    | point | circle | arc => exact h _ he hkind

/-! ### Adding and removing -/

theorem GroundedFor.push [Scalar α] (h : s.GroundedFor kinds) {make : Nat → Entity α}
    (hmake : ∀ id ∈ (make s.nextEntity).basePoints, s.contains (.point id) = true) :
    (s.push make).GroundedFor kinds := by
  intro e he hkind id hid
  show _ ∈ (s.entities ++ [make s.nextEntity]).map Entity.ref
  rw [List.map_append]
  refine List.mem_append_left _ ?_
  rcases List.mem_append.mp he with hold | hnew
  · exact h e hold hkind id hid
  · rw [List.mem_singleton.mp hnew] at hid
    exact mem_refs_of_contains (hmake id hid)

theorem GroundedFor.addLine [Scalar α] (h : s.GroundedFor kinds) (start stop : PointId) :
    (s.addLine start stop).2.GroundedFor kinds := by
  unfold Sketch.addLine
  split
  next => exact h
  next hstart =>
    split
    next => exact h
    next hstop =>
      refine h.push ?_
      intro id hid
      rcases List.mem_pair.mp hid with rfl | rfl
      · simpa using hstart
      · simpa using hstop

theorem GroundedFor.addCircle [Scalar α] (h : s.GroundedFor kinds) (center : PointId) (radius : α) :
    (s.addCircle center radius).2.GroundedFor kinds := by
  unfold Sketch.addCircle
  split
  next => exact h
  next hcenter =>
    split
    next => exact h
    next =>
      refine h.push ?_
      intro id hid
      rw [List.mem_singleton.mp hid]
      simpa using hcenter

theorem GroundedFor.addArc [Scalar α] (h : s.GroundedFor kinds) (center : PointId)
    (radius startAngle stopAngle : α) :
    (s.addArc center radius startAngle stopAngle).2.GroundedFor kinds := by
  unfold Sketch.addArc
  split
  next => exact h
  next hcenter =>
    split
    next => exact h
    next =>
      refine h.push ?_
      intro id hid
      rw [List.mem_singleton.mp hid]
      simpa using hcenter

theorem GroundedFor.fixPoint [Scalar α] (h : s.GroundedFor kinds) (id : PointId) :
    (s.fixPoint id).2.GroundedFor kinds := by
  unfold Sketch.fixPoint
  split
  · exact h
  · exact h

theorem GroundedFor.editConstraint (h : s.GroundedFor kinds) {id : ConstraintId}
    {f : Constraint α → Constraint α} (ht : s.editConstraint id f = .ok t) :
    t.GroundedFor kinds := by
  unfold Sketch.editConstraint editConstraint? at ht
  split at ht
  next u hu =>
    obtain ⟨_, -, rfl⟩ := Option.map_eq_some_iff.mp hu
    cases ht
    exact h
  next => cases ht

theorem WellFormed.groundedFor_removePoint (hs : s.WellFormed) (h : s.GroundedFor kinds)
    {id : PointId} {p : Point α} (ht : s.removePoint id = .ok (p, t)) : t.GroundedFor kinds := by
  unfold removePoint at ht
  split at ht
  next => cases ht
  next =>
    cases ht
    intro e he hkind base hbase
    obtain ⟨he, hkept⟩ := List.mem_filter.mp he
    obtain ⟨q, hq, href⟩ := List.mem_map.mp (h e he hkind base hbase)
    rw [← href]
    refine List.mem_map_of_mem (List.mem_filter.mpr ⟨hq, decide_eq_true ?_⟩)
    have hraw : q.raw = base.raw := congrArg EntityRef.raw href
    intro hgone
    rcases List.mem_cons.mp hgone with hsame | hdependent
    · -- an entity on the removed point is gone itself
      obtain rfl : base = id := congrArg PointId.mk (hraw.symm.trans hsame)
      have hin : e.raw ∈ s.dependents base :=
        List.mem_map_of_mem (List.mem_filter.mpr ⟨he, decide_eq_true hbase⟩)
      exact of_decide_eq_true hkept (List.mem_cons_of_mem _ hin)
    · -- nothing is built on what a point is built on
      obtain ⟨d, hd, hdraw⟩ := List.mem_map.mp hdependent
      obtain ⟨hd, hon⟩ := List.mem_filter.mp hd
      have hnodup : (s.entities.map Entity.raw).Nodup := hs.raws_ascending.imp Nat.ne_of_lt
      obtain rfl := List.inj_on_of_nodup_map hnodup hd hq hdraw
      cases d with
      | point => cases of_decide_eq_true hon
      | line | circle | arc => cases href

theorem GroundedFor.removeEntity (h : s.GroundedFor kinds) {e : EntityRef}
    (ht : s.removeEntity e = .ok t) (hcurve : ∀ id, e ≠ .point id) : t.GroundedFor kinds := by
  unfold Sketch.removeEntity at ht
  split at ht
  next => cases ht
  next place hplace =>
    split at ht
    next hcontains =>
      cases ht
      intro d hd hkind base hbase
      obtain ⟨q, hq, href⟩ := List.mem_map.mp (h d (List.mem_of_mem_eraseIdx hd) hkind base hbase)
      obtain ⟨other, hother⟩ := List.getElem?_of_mem hq
      rw [← href]
      refine List.mem_map_of_mem (List.mem_eraseIdx_iff_getElem?.mpr ⟨other, ?_, hother⟩)
      -- what is taken out is no point
      rintro rfl
      rw [contains, entity?, hplace, Option.bind_some, hother, Option.any_some,
        decide_eq_true_eq] at hcontains
      exact hcurve base (hcontains.symm.trans href)
    next => cases ht

end Sketch

variable [Scalar α]

namespace Operation

open Sketch

/-- Whether the operation leaves the ends of lines alone. -/
def KeepsEnds : Operation α → Prop
  | .editLine _ f => ∀ l, (f l).start = l.start ∧ (f l).stop = l.stop
  | _ => True

/-- What an edit leaves a line as its ends are points of the sketch. -/
def FindsEnds (s : Sketch α) : Operation α → Prop
  | .editLine id f => ∀ l, s.line? id = some l → s.Resolves (f l).start ∧ s.Resolves (f l).stop
  | _ => True

/-- What the edits of a run leave the lines as their ends are points of the sketch at that time. -/
def AllFindEnds : List (Operation α) → Sketch α → Prop
  | [], _ => True
  | op :: rest, s => op.FindsEnds s ∧ AllFindEnds rest (op.apply s)

variable {kinds : EntityRef → Prop}

omit [Scalar α] in
theorem groundedFor_getD {s : Sketch α} {t? : Option (Sketch α)} (h : s.GroundedFor kinds)
    (ht : ∀ t, t? = some t → t.GroundedFor kinds) : (t?.getD s).GroundedFor kinds := by
  cases t? with
  | none => exact h
  | some t => exact ht t rfl

theorem groundedFor_apply {op : Operation α} {s : Sketch α}
    (hop : op.FindsEnds s ∨ ∀ id, ¬ kinds (.line id)) (hs : s.WellFormed)
    (h : s.GroundedFor kinds) : (op.apply s).GroundedFor kinds := by
  cases op with
  | addPoint | addFixedPoint => exact h.push nofun
  | addLine start stop => exact h.addLine start stop
  | addCircle center radius => exact h.addCircle center radius
  | addArc center radius startAngle stopAngle => exact h.addArc center radius startAngle stopAngle
  | addConstraint | applySuggestion | purge => exact h
  | fixPoint id => exact h.fixPoint id
  | setPosition id position =>
    refine groundedFor_getD h fun t ht => ?_
    have hset := ok_of_toOption ht
    unfold Sketch.setPosition at hset
    split at hset
    next u hu =>
      cases hset
      exact h.editPoint? hu fun _ => rfl
    next => cases hset
  | setEnabled | setDriving =>
    exact groundedFor_getD h fun t ht => h.editConstraint (ok_of_toOption ht)
  | setValue id value =>
    refine groundedFor_getD h fun t ht => ?_
    have hset := ok_of_toOption ht
    unfold Sketch.setValue at hset
    split at hset
    next => cases hset
    next =>
      split at hset
      next => cases hset
      next => exact h.editConstraint hset
  | removePoint id =>
    refine groundedFor_getD h fun t ht => ?_
    obtain ⟨⟨p, _⟩, hremoved, rfl⟩ := Option.map_eq_some_iff.mp ht
    exact hs.groundedFor_removePoint h (ok_of_toOption hremoved)
  | removeLine | removeCircle | removeArc =>
    exact groundedFor_getD h fun t ht => h.removeEntity (ok_of_toOption ht) nofun
  | removeConstraint id =>
    refine groundedFor_getD h fun t ht => ?_
    obtain ⟨⟨_, _⟩, hremoved, rfl⟩ := Option.map_eq_some_iff.mp ht
    obtain ⟨_, -, heq⟩ := Option.map_eq_some_iff.mp hremoved
    cases heq
    exact h
  | solve m c state =>
    show (s.solveFrom m c state).sketch.GroundedFor kinds
    rcases s.outline_solveFrom m c state with hsame | houtline
    · rw [hsame]
      exact h
    · have hpurged : s.purge.2.GroundedFor kinds := h
      exact hpurged.of_outline houtline.symm
  | editPoint id f => exact groundedFor_getD h fun t ht => h.editPoint? ht fun _ => rfl
  | editLine id f =>
    refine groundedFor_getD h fun t ht => h.editLine? ht (fun _ => rfl) ?_
    intro l hl hline p hp
    obtain ⟨hstart, hstop⟩ := hop.resolve_right (fun hnot => hnot l.id hline) l hl
    rcases List.mem_pair.mp hp with rfl | rfl
    · exact hs.resolves_iff.mp hstart
    · exact hs.resolves_iff.mp hstop
  | editConstraint id f =>
    refine groundedFor_getD h fun t ht => ?_
    obtain ⟨_, -, rfl⟩ := Option.map_eq_some_iff.mp ht
    exact h

/-- Only the ends that an edit gives to a line have to be looked at, and nothing if lines do not
matter. -/
theorem groundedFor_run {ops : List (Operation α)} {s : Sketch α}
    (hops : AllFindEnds ops s ∨ ∀ id, ¬ kinds (.line id)) (hs : s.WellFormed)
    (h : s.GroundedFor kinds) : (run ops s).GroundedFor kinds := by
  induction ops generalizing s with
  | nil => exact h
  | cons op rest ih =>
    exact ih (hops.imp_left And.right) ((op.evolves_apply s).wellFormed hs)
      (groundedFor_apply (hops.imp_left And.left) hs h)

theorem groundedFor_run_empty {ops : List (Operation α)} {name : String}
    (hops : AllFindEnds ops (empty name) ∨ ∀ id, ¬ kinds (.line id)) :
    (run ops (empty name)).GroundedFor kinds :=
  groundedFor_run hops (wellFormed_empty name) fun _ he => absurd he List.not_mem_nil

theorem AllFindEnds.grounded {ops : List (Operation α)} {name : String}
    (hops : AllFindEnds ops (empty name)) : (run ops (empty name)).Grounded :=
  grounded_iff.mpr (groundedFor_run_empty (Or.inl hops))

omit [Scalar α] in
/-- An edit that keeps the ends of a line leaves it on points of the sketch if it was on such. -/
theorem KeepsEnds.findsEnds {op : Operation α} (hop : op.KeepsEnds) {s : Sketch α}
    (hs : s.WellFormed) (h : s.Grounded) : op.FindsEnds s := by
  cases op with
  | editLine id f =>
    intro l hl
    have hmem : .line l ∈ s.entities := (hs.line?_eq_some_iff.mp hl).1
    rw [(hop l).1, (hop l).2]
    exact ⟨h.resolves hs hmem (List.mem_cons_self ..),
      h.resolves hs hmem (List.mem_cons_of_mem _ (List.mem_singleton_self _))⟩
  | _ => trivial

theorem grounded_run {ops : List (Operation α)} (hops : ∀ op ∈ ops, op.KeepsEnds) {s : Sketch α}
    (hs : s.WellFormed) (h : s.Grounded) : (run ops s).Grounded := by
  induction ops generalizing s with
  | nil => exact h
  | cons op rest ih =>
    have hop : op.FindsEnds s := (hops op (List.mem_cons_self ..)).findsEnds hs h
    refine ih (fun later hlater => hops later (List.mem_cons_of_mem _ hlater))
      ((op.evolves_apply s).wellFormed hs) ?_
    exact grounded_iff.mpr (groundedFor_apply (Or.inl hop) hs (grounded_iff.mp h))

/-- Whatever is done to a sketch that starts empty, short of giving a line other ends, the ends of
each line and the center of each circle and of each arc are points of the sketch. -/
theorem references_run_empty {ops : List (Operation α)} (hops : ∀ op ∈ ops, op.KeepsEnds)
    (name : String) :
    let s := run ops (empty name)
    (∀ l ∈ s.lines, s.Resolves l.start ∧ s.Resolves l.stop) ∧
    (∀ c ∈ s.circles, s.Resolves c.center) ∧
    (∀ a ∈ s.arcs, s.Resolves a.center) := by
  intro s
  have hs : s.WellFormed := wellFormed_run_empty ops name
  have hground : s.Grounded := grounded_run hops (wellFormed_empty name) nofun
  refine ⟨?_, ?_, ?_⟩
  · intro l hl
    have hl : .line l ∈ s.entities := mem_lines_iff.mp hl
    exact ⟨hground.resolves hs hl (List.mem_cons_self ..),
      hground.resolves hs hl (List.mem_cons_of_mem _ (List.mem_singleton_self _))⟩
  · intro c hc
    exact hground.resolves hs (mem_circles_iff.mp hc) (List.mem_singleton_self _)
  · intro a ha
    exact hground.resolves hs (mem_arcs_iff.mp ha) (List.mem_singleton_self _)

/-- A line between two points and a circle around one of them, of which the other one is removed. -/
def removedEnd : List (Operation Float) :=
  [.addPoint ⟨0.0, 0.0⟩, .addPoint ⟨1.0, 0.0⟩, .addLine ⟨0⟩ ⟨1⟩, .addCircle ⟨0⟩ 5.0,
    .addCircle ⟨1⟩ 0.0, .editLine ⟨2⟩ fun l => { l with construction := true }, .removePoint ⟨1⟩,
    .solve (.answering [0.0, 0.0, 5.0]) .standard ()]

theorem references_run_removedEnd :
    (∀ op ∈ removedEnd, op.KeepsEnds) ∧
      ∃ c ∈ (run removedEnd (empty "")).circles, (run removedEnd (empty "")).Resolves c.center := by
  have hops : ∀ op ∈ removedEnd, op.KeepsEnds := by
    simp [removedEnd, KeepsEnds]
  have hcircles : (run removedEnd (empty "")).circles.length = 1 := by decide +kernel
  obtain ⟨c, hc⟩ := List.exists_mem_of_length_pos (by rw [hcircles]; exact Nat.one_pos)
  exact ⟨hops, c, hc, (references_run_empty hops "").2.1 c hc⟩

end Operation

end PlaneSketch
