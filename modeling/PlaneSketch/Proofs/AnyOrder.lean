import PlaneSketch.Proofs.Counting
import PlaneSketch.Proofs.Irreducible
import PlaneSketch.Proofs.Tables

/-!
# Results in any order

Held points, axes and found constraints are kept in sets and tables, which may be enumerated in any
order, another one each time. What comes out does not depend on it: points are moved one by one, but
no point twice; what a removal takes along and what a test leaves out is asked for by its id; axes
and the points around a constraint are only looked up.
-/

namespace PlaneSketch

variable {α σ : Type}

/-! ### Held points -/

namespace Sketch

theorem Pins.lookup_hold (pins : Pins α) (id other : PointId) (position : Vec α) :
    (pins.hold id position).lookup other =
      if other = id then some position else pins.lookup other := by
  induction pins with
  | nil => rw [hold, lookup_cons_eq_ite]
  | cons pin rest ih =>
    obtain ⟨first, held⟩ := pin
    unfold hold
    by_cases hfirst : first = id
    · subst hfirst
      rw [if_pos rfl, lookup_cons_eq_ite, lookup_cons_eq_ite]
      split <;> rfl
    · rw [if_neg hfirst, lookup_cons_eq_ite, lookup_cons_eq_ite, ih]
      by_cases hother : other = first
      · rw [if_pos hother, if_neg (hother ▸ hfirst), if_pos hother]
      · rw [if_neg hother, if_neg hother]

/-- Of several positions for one point the last one wins. -/
theorem Pins.lookup_foldl_hold (held : List (PointId × Vec α)) (pins : Pins α) (id : PointId) :
    (held.foldl (fun pins (id, position) => pins.hold id position) pins).lookup id =
      ((held.filterMap fun pin => if pin.1 = id then some pin.2 else none).getLast?).or
        (pins.lookup id) := by
  induction held generalizing pins with
  | nil => rfl
  | cons pin rest ih =>
    rw [List.foldl_cons, ih, lookup_hold, List.filterMap_cons]
    by_cases hid : id = pin.1
    · rw [if_pos hid, if_pos hid.symm]
      cases hlast : (rest.filterMap fun pin => if pin.1 = id then some pin.2 else none).getLast? <;>
        simp [List.getLast?_cons, hlast]
    · rw [if_neg hid, if_neg (Ne.symm hid)]

theorem Pins.looksUpAs_hold {pins held : Pins α} (h : LooksUpAs pins held) (id : PointId)
    (position : Vec α) : LooksUpAs (pins.hold id position) (held.hold id position) := by
  refine ⟨nodup_foldl_hold [(id, position)] h.keys_nodup, fun other => ?_⟩
  rw [lookup_hold, lookup_hold, h.lookup_eq]

end Sketch

theorem Entity.moved_comm {id other : PointId} (hne : id ≠ other) (position position' : Vec α)
    (e : Entity α) :
    (e.moved id position).moved other position' = (e.moved other position').moved id position := by
  cases e with
  | point p =>
    by_cases hid : p.id = id
    · have hother : p.id ≠ other := fun h => hne (hid.symm.trans h)
      rw [moved_point_self position hid, moved_point_of_ne position' hother,
        moved_point_self position hid]
      exact moved_point_of_ne position' hother
    · rw [moved_point_of_ne position hid]
      by_cases hother : p.id = other
      · rw [moved_point_self position' hother]
        exact (moved_point_of_ne (p := { p with position := position' }) position hid).symm
      · rw [moved_point_of_ne position' hother, moved_point_of_ne position hid]
  | line | circle | arc => rfl

namespace Sketch

variable {s : Sketch α}

/-- What may come out as the table of held points, if the table is enumerated in any order before
each constraint is asked for the point that it holds. -/
def MayHold (s : Sketch α) (held : Pins α) : Prop :=
  Shuffles List.Perm (fun (pins : Pins α) (id, position) => pins.hold id position)
    (s.constraints.filterMap s.heldBy?)
    ((s.points.filter (·.fixed)).map fun p => (p.id, p.position)) held

theorem mayHold_pins (s : Sketch α) : s.MayHold s.pins :=
  shuffles_foldl List.Perm.refl ..

theorem MayHold.looksUpAs {held : Pins α} (h : s.MayHold held) (hs : s.WellFormed) :
    LooksUpAs s.pins held :=
  h.simulates (motive := LooksUpAs) LooksUpAs.shuffle
    (fun pin hsim => Pins.looksUpAs_hold hsim pin.1 pin.2) (.of_nodup hs.fixed_pins_nodup)

theorem WellFormed.place_eq (hs : s.WellFormed) (id : PointId) (position : Vec α) :
    s.place id position = { s with entities := s.entities.map (Entity.moved id position) } := by
  rw [← hs.entities_place]
  unfold Sketch.place
  split
  · rfl
  · unfold modifyEntity
    split <;> rfl

theorem WellFormed.place_comm (hs : s.WellFormed) {id other : PointId} (hne : id ≠ other)
    (position position' : Vec α) :
    (s.place id position).place other position' = (s.place other position').place id position := by
  rw [(hs.place ..).place_eq, (hs.place ..).place_eq, hs.place_eq, hs.place_eq]
  simp only [List.map_map]
  congr 2
  funext e
  exact Entity.moved_comm hne position position' e

/-- Distinct points may be put where they are held in any order. -/
theorem WellFormed.applyPins_of_perm (hs : s.WellFormed) {pins held : Pins α}
    (hperm : pins.Perm held) (hkeys : (pins.map Prod.fst).Nodup) :
    s.applyPins pins = s.applyPins held := by
  induction hperm generalizing s with
  | nil => rfl
  | cons pin _ ih => exact ih (hs.place ..) (List.nodup_cons.mp hkeys).2
  | swap first second rest =>
    have hne : second.1 ≠ first.1 :=
      fun h => (List.nodup_cons.mp hkeys).1 (h ▸ List.mem_cons_self ..)
    show ((s.place second.1 second.2).place first.1 first.2).applyPins rest =
      ((s.place first.1 first.2).place second.1 second.2).applyPins rest
    rw [hs.place_comm hne]
  | trans hfirst _ ih ih' =>
    exact (ih hs hkeys).trans (ih' hs ((hfirst.map Prod.fst).nodup_iff.mp hkeys))

theorem MayHold.applyPins_eq {held : Pins α} (h : s.MayHold held) (hs : s.WellFormed) :
    s.applyPins held = s.applyPins s.pins :=
  (hs.applyPins_of_perm ((h.looksUpAs hs).perm hs.pins_nodup) hs.pins_nodup).symm

/-- The positions that active constraints hold a point at, in the order of the constraints. -/
def targetsOf (s : Sketch α) (id : PointId) : List (Vec α) :=
  s.active.filterMap fun c =>
    match c.requirement with
    | .fixed other position => if other = id then some position else none
    | _ => none

theorem targetsOf_eq {p : Point α} (hp : s.point? p.id = some p) (hfree : p.fixed = false) :
    ((s.constraints.filterMap s.heldBy?).filterMap fun pin =>
      if pin.1 = p.id then some pin.2 else none) = s.targetsOf p.id := by
  unfold targetsOf active
  rw [List.filterMap_filterMap, List.filterMap_filter]
  refine List.filterMap_congr fun c _ => ?_
  unfold heldBy?
  cases c.requirement with
  | fixed other position =>
    by_cases hother : other = p.id
    · subst hother
      cases c.isActive <;> simp [hp, hfree]
    · dsimp only
      split <;> simp [hother]
  | _ => simp

theorem WellFormed.lookup_fixed_pins (hs : s.WellFormed) {p : Point α} (hp : s.point? p.id = some p)
    (hfree : p.fixed = false) :
    ((s.points.filter (·.fixed)).map fun p => (p.id, p.position)).lookup p.id = none := by
  refine Option.eq_none_iff_forall_ne_some.mpr fun position hsome => ?_
  rw [lookup_eq_some_iff_mem hs.fixed_pins_nodup] at hsome
  obtain ⟨q, hq, hsame⟩ := List.mem_map.mp hsome
  obtain ⟨hq, hfixed⟩ := List.mem_filter.mp hq
  have hfound : s.point? q.id = some q := hs.point?_eq_some_iff.mpr ⟨mem_points_iff.mp hq, rfl⟩
  rw [(Prod.mk.inj hsame).1, hp] at hfound
  cases hfound
  rw [hfree] at hfixed
  cases hfixed

theorem MayHold.lookup_fixed {held : Pins α} (h : s.MayHold held) (hs : s.WellFormed) {p : Point α}
    (hp : p ∈ s.points) (hfixed : p.fixed = true) : held.lookup p.id = some p.position := by
  rw [(h.looksUpAs hs).lookup_eq, lookup_eq_some_iff_mem hs.pins_nodup]
  exact hs.mem_pins_of_fixed (mem_points_iff.mp hp) hfixed

theorem MayHold.lookup_free {held : Pins α} (h : s.MayHold held) (hs : s.WellFormed) {p : Point α}
    (hp : p ∈ s.points) (hfree : p.fixed = false) :
    held.lookup p.id = (s.targetsOf p.id).getLast? := by
  have hpoint : s.point? p.id = some p := hs.point?_eq_some_iff.mpr ⟨mem_points_iff.mp hp, rfl⟩
  rw [(h.looksUpAs hs).lookup_eq, pins, Pins.lookup_foldl_hold, targetsOf_eq hpoint hfree,
    hs.lookup_fixed_pins hpoint hfree, Option.or_none]

/-! ### Removal -/

/-- The removal of a point, with its dependents in another order. -/
def removePointAlong (s : Sketch α) (id : PointId) (along : List Nat) :
    Except (Fault α) (Point α × Sketch α) :=
  match s.point? id with
  | none => .error (.entityNotFound (.point id))
  | some p =>
    let gone := id.raw :: along
    let s := { s with removed := noteRemoved s.removed gone }
    .ok (p, s.withEntities (s.entities.filter (·.raw ∉ gone)))

/-- The sketch with its removed ids in ascending order, as the set that they are. -/
def sorted (s : Sketch α) : Sketch α :=
  { s with removed := ascending (fun a b => a < b) s.removed }

theorem removePointAlong_eq (s : Sketch α) (id : PointId) {along : List Nat}
    (halong : SameMembers along (s.dependents id)) :
    (s.removePointAlong id along).map (fun (p, t) => (p, t.sorted)) =
      (s.removePoint id).map fun (p, t) => (p, t.sorted) := by
  unfold removePointAlong removePoint
  cases s.point? id with
  | none => rfl
  | some p =>
    have hgone : SameMembers (id.raw :: along) (id.raw :: s.dependents id) := by
      intro raw
      rw [List.mem_cons, List.mem_cons, halong raw]
    have hremoved : SameMembers (noteRemoved s.removed (id.raw :: along))
        (noteRemoved s.removed (id.raw :: s.dependents id)) := by
      intro raw
      rw [mem_noteRemoved, mem_noteRemoved, hgone raw]
    simp only [Except.map, sorted, withEntities, hremoved.ascending_nat_eq, hgone _]

end Sketch

/-! ### Connected constraints -/

namespace Conflict

/-- Two searches for connected constraints that have found the same constraints and points. -/
def SameFound (found found' : List ConstraintId × List PointId) : Prop :=
  SameMembers found.1 found'.1 ∧ SameMembers found.2 found'.2

theorem SameFound.reachFrom {found found' : List ConstraintId × List PointId}
    (h : SameFound found found') (entry : ConstraintId × List PointId) :
    SameFound (reachFrom [entry] found) (reachFrom [entry] found') := by
  obtain ⟨id, own⟩ := entry
  obtain ⟨ids, points⟩ := found
  obtain ⟨ids', points'⟩ := found'
  obtain ⟨hids, hpoints⟩ := h
  have hasked : (decide (id ∉ ids) && own.any (· ∈ points)) =
      (decide (id ∉ ids') && own.any (· ∈ points')) := by
    rw [hpoints.any_eq own, decide_eq_decide.mpr (not_congr (hids id))]
  show SameFound (if (decide (id ∉ ids) && own.any (· ∈ points)) = true then _ else _)
    (if (decide (id ∉ ids') && own.any (· ∈ points')) = true then _ else _)
  rw [hasked]
  split
  next => exact ⟨.append (.refl [id]) hids, .append (.refl own) hpoints⟩
  next => exact ⟨hids, hpoints⟩

variable {s : Sketch α} {active : List (Constraint α)}

/-- What a search for connected constraints may find, if the points found so far are enumerated in
any order before each constraint is looked at. -/
def MayConnect (s : Sketch α) (active : List (Constraint α)) (seeds : List ConstraintId)
    (found : List ConstraintId × List PointId) : Prop :=
  let touched := active.map fun c => (c.id, s.touchedPoints c.requirement)
  Shuffles SameFound (fun found entry => reachFrom [entry] found)
    (List.replicate touched.length touched).flatten
    (seeds, (touched.filter (·.1 ∈ seeds)).flatMap (·.2)) found

theorem exists_mayConnect (s : Sketch α) (active : List (Constraint α))
    (seeds : List ConstraintId) : ∃ found, MayConnect s active seeds found :=
  ⟨_, shuffles_foldl (fun _ => ⟨.refl _, .refl _⟩) ..⟩

theorem MayConnect.ascendingIds_eq {seeds : List ConstraintId}
    {found : List ConstraintId × List PointId} (h : MayConnect s active seeds found) :
    ascendingIds found.1 = connectedTo s active seeds := by
  have hsame := h.simulates (motive := SameFound)
    (fun hsim halike => ⟨hsim.1.trans halike.1, hsim.2.trans halike.2⟩)
    (fun entry hsim => hsim.reachFrom entry) ⟨.refl _, .refl _⟩
  rw [← repeat_foldl] at hsame
  exact hsame.1.symm.ascendingIds_eq

/-! ### Axes -/

variable {axes shown : Axes}

theorem LooksUpAs.append_line (h : LooksUpAs axes shown) {line : LineId}
    (hline : axes.lookup line = none) (oriented : Oriented) :
    LooksUpAs (axes ++ [(line, oriented)]) (shown ++ [(line, oriented)]) := by
  refine ⟨?_, fun other => ?_⟩
  · rw [List.map_append, List.nodup_append]
    refine ⟨h.keys_nodup, List.nodup_singleton _, ?_⟩
    rintro key hkey _ hin rfl
    obtain rfl := List.mem_singleton.mp hin
    obtain ⟨⟨_, known⟩, hentry, rfl⟩ := List.mem_map.mp hkey
    rw [← h.lookup_eq, (lookup_eq_some_iff_mem h.keys_nodup).mpr hentry] at hline
    cases hline
  · rw [List.lookup_append, List.lookup_append, h.lookup_eq]

/-- An axis that a constraint gives a line on its own, unless the line has one. -/
def give (axes : Axes) (given : LineId × Oriented) : Axes :=
  if (axes.lookup given.1).isSome then axes else axes ++ [(given.1, given.2)]

theorem LooksUpAs.give (h : LooksUpAs axes shown) (given : LineId × Oriented) :
    LooksUpAs (give axes given) (give shown given) := by
  unfold Conflict.give
  rw [h.lookup_eq]
  split
  next => exact h
  next hline => exact append_line h (Option.not_isSome_iff_eq_none.mp hline) given.2

theorem LooksUpAs.handOn (h : LooksUpAs axes shown) (link : AxisLink α) (turns : Bool) :
    LooksUpAs (handOn axes link turns) (handOn shown link turns) := by
  unfold Conflict.handOn
  rw [h.lookup_eq, h.lookup_eq]
  dsimp only
  split
  next hline => exact append_line h hline _
  next hline _ => exact append_line h hline _
  next => exact h

theorem LooksUpAs.follow (h : LooksUpAs axes shown) (link : AxisLink α) :
    LooksUpAs (follow axes link) (follow shown link) := by
  unfold Conflict.follow
  split
  next => exact handOn h link false
  next => exact handOn h link true
  next => exact h

/-- The axes that lines may get, if the table of axes is enumerated in any order before each
constraint is looked at. -/
def MayOrient (active : List (Constraint α)) (shown : Axes) : Prop :=
  let links := active.filterMap linkOf?
  ∃ given, Shuffles List.Perm give (active.filterMap axisOf?) [] given ∧
    Shuffles List.Perm follow (List.replicate links.length links).flatten given shown

theorem mayOrient_spreadAxes (active : List (Constraint α)) :
    MayOrient active (spreadAxes (active.filterMap linkOf?) (givenAxes active)) := by
  refine ⟨givenAxes active, shuffles_foldl List.Perm.refl .., ?_⟩
  unfold spreadAxes
  rw [repeat_foldl]
  exact shuffles_foldl List.Perm.refl ..

theorem MayOrient.looksUpAs (h : MayOrient active shown) :
    LooksUpAs (spreadAxes (active.filterMap linkOf?) (givenAxes active)) shown := by
  obtain ⟨given, hgiven, hshown⟩ := h
  have hstart : LooksUpAs (givenAxes active) given :=
    hgiven.simulates (motive := LooksUpAs) LooksUpAs.shuffle
      (fun entry hsim => LooksUpAs.give hsim entry) (.of_nodup List.nodup_nil)
  unfold spreadAxes
  rw [repeat_foldl]
  exact hshown.simulates (motive := LooksUpAs) LooksUpAs.shuffle
    (fun link hsim => LooksUpAs.follow hsim link) hstart

theorem MayOrient.ofLink?_eq [Scalar α] (h : MayOrient active shown) :
    (active.filterMap linkOf?).filterMap (ofLink? s shown) = ofAxes s active := by
  refine List.filterMap_congr fun link _ => ?_
  unfold ofLink?
  rw [h.looksUpAs.lookup_eq, h.looksUpAs.lookup_eq]

end Conflict

/-! ### Redundancy -/

namespace Sketch

open Conflict

variable {s : Sketch α}

/-- The sketch with constraints disabled one after another; an id that none has is passed over. -/
def disabling (s : Sketch α) (ids : List ConstraintId) : Sketch α :=
  ids.foldl (fun s id => (s.editConstraint? id fun c => { c with enabled := false }).getD s) s

theorem modifyConstraint_eq_map {id : ConstraintId} {constraints : List (Constraint α)}
    (hnodup : (constraints.map (·.id)).Nodup) (f : Constraint α → Constraint α) :
    modifyConstraint id f constraints = constraints.map fun c => if c.id = id then f c else c := by
  induction constraints with
  | nil => rfl
  | cons c rest ih =>
    obtain ⟨hc, hrest⟩ := List.nodup_cons.mp hnodup
    rw [modifyConstraint, List.map_cons]
    by_cases hid : c.id = id
    · have hothers : ∀ d ∈ rest, (if d.id = id then f d else d) = d := by
        intro d hd
        refine if_neg fun hsame => hc ?_
        exact List.mem_map.mpr ⟨d, hd, hsame.trans hid.symm⟩
      rw [if_pos hid, if_pos hid, List.map_congr_left hothers, List.map_id']
    · rw [if_neg hid, if_neg hid, ih hrest]

theorem disable_eq_without (hnodup : (s.constraints.map (·.id)).Nodup) (id : ConstraintId) :
    (s.editConstraint? id fun c => { c with enabled := false }).getD s = s.without [id] := by
  unfold editConstraint? without
  simp only [List.mem_singleton]
  cases hc : s.constraint? id with
  | some c => simp only [Option.map_some, Option.getD_some, modifyConstraint_eq_map hnodup]
  | none =>
    have hothers : ∀ c ∈ s.constraints,
        (if c.id = id then { c with enabled := false } else c) = c := by
      intro c hc'
      exact if_neg fun hid => List.find?_eq_none.mp hc c hc' (decide_eq_true hid)
    rw [List.map_congr_left hothers, List.map_id']
    rfl

theorem ids_without (s : Sketch α) (ids : List ConstraintId) :
    (s.without ids).constraints.map (·.id) = s.constraints.map (·.id) := by
  unfold without
  rw [List.map_map]
  refine List.map_congr_left fun c _ => ?_
  simp only [Function.comp_apply]
  split <;> rfl

theorem without_without (s : Sketch α) (ids more : List ConstraintId) :
    (s.without ids).without more = s.without (ids ++ more) := by
  unfold without
  simp only [List.map_map]
  congr 1
  refine List.map_congr_left fun c _ => ?_
  simp only [Function.comp_apply, List.mem_append]
  by_cases hids : c.id ∈ ids <;> by_cases hmore : c.id ∈ more <;> simp [hids, hmore]

theorem disabling_eq_without (hnodup : (s.constraints.map (·.id)).Nodup) (ids : List ConstraintId) :
    s.disabling ids = s.without ids := by
  unfold disabling
  induction ids generalizing s with
  | nil => simp [without]
  | cons id rest ih =>
    rw [List.foldl_cons, disable_eq_without hnodup, ih (by rwa [ids_without]), without_without]
    rfl

theorem WellFormed.disabling_eq (hs : s.WellFormed) {ids excluded : List ConstraintId}
    (hids : SameMembers ids excluded) (id : ConstraintId) :
    s.disabling (ids ++ [id]) = s.without (id :: excluded) := by
  rw [disabling_eq_without hs.constraint_ids_nodup]
  refine without_congr fun other => ?_
  rw [List.mem_append, List.mem_singleton, List.mem_cons, hids other, or_comm]

variable [Scalar α]

/-- The test of a candidate where the rest of the sketch is given. -/
def impliedIn (rest : Sketch α) (m : Minimizer α σ) (c : DiagnosisConfig α)
    (candidate : Constraint α) : StateM σ Bool := do
  let trial ← rest.trial m c.solver
  return trial.accepted
    && !(c.redundancyTolerance < trial.sketch.errorOf candidate.requirement)
    && trial.sketch.spans c candidate

/-- The tests of some constraints in turn, where those already found are disabled one after another,
in some order that depends on the candidate. -/
def redundantAmongBy (order : Constraint α → List ConstraintId → List ConstraintId) (s : Sketch α)
    (m : Minimizer α σ) (c : DiagnosisConfig α) (excluded : List ConstraintId) :
    List (Constraint α) → StateM σ (List Redundancy)
  | [] => pure []
  | candidate :: older => do
    let rest := s.disabling (order candidate excluded ++ [candidate.id])
    if ← rest.impliedIn m c candidate then
      let found : Redundancy := ⟨candidate.id, s.redundancyReason rest candidate⟩
      return found :: (← redundantAmongBy order s m c (candidate.id :: excluded) older)
    else redundantAmongBy order s m c excluded older

theorem WellFormed.redundantAmongBy_eq (hs : s.WellFormed) (m : Minimizer α σ)
    (c : DiagnosisConfig α) {order : Constraint α → List ConstraintId → List ConstraintId}
    (horder : ∀ candidate excluded, SameMembers (order candidate excluded) excluded)
    (excluded : List ConstraintId) (candidates : List (Constraint α)) :
    redundantAmongBy order s m c excluded candidates =
      s.redundantAmong m c excluded candidates := by
  induction candidates generalizing excluded with
  | nil => rfl
  | cons candidate older ih =>
    unfold redundantAmongBy redundantAmong
    simp only [hs.disabling_eq (horder candidate excluded), ih]
    rfl

/-- The redundant constraints where those already found are disabled in some order. -/
def redundanciesBy (order : Constraint α → List ConstraintId → List ConstraintId) (s : Sketch α)
    (m : Minimizer α σ) (c : DiagnosisConfig α) : StateM σ (List Redundancy) := do
  let found ← redundantAmongBy order s m c [] (s.redundancyCandidates c)
  return found.mergeSort fun a b => a.id.raw ≤ b.id.raw

/-- No result depends on the order in which a set or a table is enumerated. A fixed point is held
where it is, and a free one where the last of the active constraints that hold it wants it. -/
theorem WellFormed.alike_in_any_order (hs : s.WellFormed) :
    (s.MayHold s.pins ∧ ∀ held, s.MayHold held →
      s.applyPins held = s.applyPins s.pins ∧
      ∀ p ∈ s.points, held.lookup p.id =
        if p.fixed then some p.position else (s.targetsOf p.id).getLast?) ∧
    (∀ id along, SameMembers along (s.dependents id) →
      (s.removePointAlong id along).map (fun (p, t) => (p, t.sorted)) =
        (s.removePoint id).map fun (p, t) => (p, t.sorted)) ∧
    (∀ active seeds, (∃ found, MayConnect s active seeds found) ∧
      ∀ found, MayConnect s active seeds found →
        ascendingIds found.1 = connectedTo s active seeds) ∧
    (∀ active, (∃ axes, MayOrient active axes) ∧
      ∀ axes, MayOrient active axes →
        (active.filterMap linkOf?).filterMap (ofLink? s axes) = ofAxes s active) ∧
    ∀ {σ : Type} (m : Minimizer α σ) (c : DiagnosisConfig α)
      (order : Constraint α → List ConstraintId → List ConstraintId),
      (∀ candidate excluded, SameMembers (order candidate excluded) excluded) →
      (∀ candidate excluded, s.disabling (order candidate excluded ++ [candidate.id]) =
        s.without (candidate.id :: excluded)) ∧
      redundanciesBy order s m c = s.redundancies m c := by
  refine ⟨⟨s.mayHold_pins, ?_⟩, ?_, ?_, ?_, ?_⟩
  · intro held hheld
    refine ⟨hheld.applyPins_eq hs, fun p hp => ?_⟩
    split
    next hfixed => exact hheld.lookup_fixed hs hp hfixed
    next hfree => exact hheld.lookup_free hs hp (Bool.not_eq_true _ ▸ hfree)
  · exact fun id along halong => s.removePointAlong_eq id halong
  · exact fun active seeds => ⟨exists_mayConnect .., fun found hfound => hfound.ascendingIds_eq⟩
  · exact fun active => ⟨⟨_, mayOrient_spreadAxes active⟩, fun axes haxes => haxes.ofLink?_eq⟩
  · intro σ m c order horder
    refine ⟨fun candidate excluded => hs.disabling_eq (horder candidate excluded) candidate.id, ?_⟩
    unfold redundanciesBy redundancies
    rw [hs.redundantAmongBy_eq m c horder]

/-- A free point that two constraints hold in different places, and a fixed one. -/
def heldTwice : Sketch Float :=
  let s := ((empty "held twice").addPoint ⟨0.0, 0.0⟩).2
  let s := (s.addFixedPoint ⟨1.0, 0.0⟩).2
  let s := (s.addConstraint (.fixed ⟨0⟩ ⟨2.0, 0.0⟩)).2
  (s.addConstraint (.fixed ⟨0⟩ ⟨3.0, 0.0⟩)).2

/-- The table of held points may turn up in reverse. -/
theorem alike_in_any_order_heldTwice :
    heldTwice.WellFormed ∧
      let held : Pins Float := [(⟨0⟩, ⟨3.0, 0.0⟩), (⟨1⟩, ⟨1.0, 0.0⟩)]
      held = heldTwice.pins.reverse ∧ heldTwice.MayHold held ∧
        heldTwice.applyPins held = heldTwice.applyPins heldTwice.pins ∧
        heldTwice.targetsOf ⟨0⟩ = [⟨2.0, 0.0⟩, ⟨3.0, 0.0⟩] ∧
        held.lookup ⟨0⟩ = some ⟨3.0, 0.0⟩ := by
  have hs : heldTwice.WellFormed :=
    ((evolves_addPointWith _ _ _).trans <| (evolves_addPointWith _ _ _).trans <|
      (evolves_addConstraint _ _).trans <| evolves_addConstraint _ _).wellFormed
      (wellFormed_empty _)
  have hheld : heldTwice.MayHold [(⟨0⟩, ⟨3.0, 0.0⟩), (⟨1⟩, ⟨1.0, 0.0⟩)] :=
    .next (.refl _) (.next (.refl _) (.done (.swap ..)))
  have halike := (hs.alike_in_any_order).1.2 _ hheld
  exact ⟨hs, rfl, hheld, halike.1, rfl, halike.2 ⟨⟨0⟩, ⟨0.0, 0.0⟩, false, false⟩ (.head _)⟩

end Sketch

end PlaneSketch
