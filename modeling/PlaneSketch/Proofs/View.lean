import PlaneSketch.Proofs.Frame
import PlaneSketch.Proofs.Reachable

/-!
# The variables as a view

A solve sees a sketch through its variables: it reads them as one vector (`values`) and writes a
vector back (`write`). What is written is what is read next, writing what was read changes nothing,
and of two vectors the second one stands. Neither a write nor putting the held points in place has a
say in which numbers the variables are or in where points are held, so the same variables serve a
whole solve.
-/

namespace PlaneSketch

variable {α : Type}

/-! ### Fixed points -/

namespace Sketch

/-- The pin of an entity, if it is a point that no solve moves. -/
def fixedPin? : Entity α → Option (PointId × Vec α) := fixedWith? fun p => (p.id, p.position)

theorem Pins.mem_hold_of_ne {pins : Pins α} {id : PointId} {position : Vec α}
    {pin : PointId × Vec α} (hin : pin ∈ pins) (hne : pin.1 ≠ id) :
    pin ∈ pins.hold id position := by
  induction pins with
  | nil => cases hin
  | cons first rest ih =>
    obtain ⟨other, held⟩ := first
    unfold hold
    split
    next hother =>
      rcases List.mem_cons.mp hin with rfl | hrest
      · exact absurd hother hne
      · exact List.mem_cons_of_mem _ hrest
    next =>
      rcases List.mem_cons.mp hin with rfl | hrest
      · exact List.mem_cons_self ..
      · exact List.mem_cons_of_mem _ (ih hrest)

theorem Pins.mem_foldl_hold_of_ne {pins : Pins α} {held : List (PointId × Vec α)}
    {pin : PointId × Vec α} (hin : pin ∈ pins) (hne : ∀ other ∈ held, pin.1 ≠ other.1) :
    pin ∈ held.foldl (fun pins (id, position) => pins.hold id position) pins := by
  induction held generalizing pins with
  | nil => exact hin
  | cons first rest ih =>
    rw [List.forall_mem_cons] at hne
    exact ih (mem_hold_of_ne hin hne.1) hne.2

variable {s t : Sketch α}

/-- A constraint holds no point that is fixed where it is. -/
theorem not_fixed_of_heldBy? {c : Constraint α} {id : PointId} {position : Vec α}
    (h : s.heldBy? c = some (id, position)) : ∃ p, s.point? id = some p ∧ p.fixed = false := by
  unfold heldBy? at h
  split at h
  next =>
    split at h
    next hcond =>
      cases h
      rw [Bool.and_eq_true, Option.any_eq_true] at hcond
      obtain ⟨-, p, hp, hfree⟩ := hcond
      rw [Bool.not_eq_true'] at hfree
      exact ⟨p, hp, hfree⟩
    next => cases h
  next => cases h

/-- A fixed point is held at its own position. -/
theorem WellFormed.mem_pins_of_fixed (hs : s.WellFormed) {p : Point α}
    (hp : .point p ∈ s.entities) (hfixed : p.fixed = true) : (p.id, p.position) ∈ s.pins := by
  refine Pins.mem_foldl_hold_of_ne ?_ ?_
  · rw [fixed_points_map]
    refine List.mem_filterMap.mpr ⟨_, hp, ?_⟩
    rw [fixedWith?, if_pos hfixed]
  · rintro ⟨id, position⟩ hother rfl
    obtain ⟨c, -, hheld⟩ := List.mem_filterMap.mp hother
    obtain ⟨q, hq, hfree⟩ := not_fixed_of_heldBy? hheld
    have hsame : s.point? p.id = some p := hs.point?_eq_some_iff.mpr ⟨hp, rfl⟩
    obtain rfl := Option.some.inj (hsame.symm.trans hq)
    rw [hfixed] at hfree
    cases hfree

theorem getElem?_outline_of_outline (h : s.outline = t.outline) (place : Nat) :
    (s.entities[place]?).map Entity.outline = (t.entities[place]?).map Entity.outline := by
  have hentities : s.entities.map Entity.outline = t.entities.map Entity.outline :=
    congrArg Outline.entities h
  rw [← List.getElem?_map, ← List.getElem?_map, hentities]

/-- What is held depends on the outline and on where the fixed points are. -/
theorem pins_of_outline (h : s.outline = t.outline)
    (hfixed : ∀ (place : Nat) p q, s.entities[place]? = some (.point p) → p.fixed = true →
      t.entities[place]? = some (.point q) → q.id = p.id → q.position = p.position) :
    s.pins = t.pins := by
  have hconstraints : s.constraints = t.constraints := congrArg Outline.constraints h
  have hheld : s.constraints.filterMap s.heldBy? = t.constraints.filterMap t.heldBy? := by
    rw [hconstraints]
    exact List.filterMap_congr fun c _ => heldBy?_of_outline h c
  have hpoints : s.entities.map fixedPin? = t.entities.map fixedPin? := by
    apply List.ext_getElem?
    intro place
    have houtline := getElem?_outline_of_outline h place
    rw [List.getElem?_map, List.getElem?_map]
    cases hd : s.entities[place]? with
    | none =>
      rw [hd] at houtline
      rw [Option.map_eq_none_iff.mp houtline.symm]
    | some d =>
      rw [hd] at houtline
      obtain ⟨e, he, hde⟩ := Option.map_eq_some_iff.mp houtline.symm
      rw [he]
      cases d <;> cases e <;> simp only [Entity.outline, Entity.point.injEq, reduceCtorEq] at hde
      case point.point p q =>
        have hid : q.id = p.id := (Point.mk.inj hde).1
        have hboth : q.fixed = p.fixed := (Point.mk.inj hde).2.2.1
        simp only [Option.map_some, fixedPin?, fixedWith?, hboth, hid]
        cases hp : p.fixed with
        | false => rfl
        | true => rw [hfixed place p q hd hp he hid]
      all_goals rfl
  have hfilter (u : Sketch α) :
      (u.points.filter (·.fixed)).map (fun p => (p.id, p.position)) =
        (u.entities.map fixedPin?).filterMap id := by
    rw [fixed_points_map, List.filterMap_map]
    rfl
  unfold pins
  rw [hheld, hfilter, hfilter, hpoints]

/-! ### Reading and writing -/

variable [Scalar α]

theorem valuesAt_eq_map (s : Sketch α) (slots : List Slot) :
    s.valuesAt slots = slots.map fun slot => (s.number? slot).getD 0.0 :=
  rfl

/-- What was written to distinct slots that fit is read from them. -/
theorem valuesAt_withValuesAt (s : Sketch α) {slots : List Slot} (hnodup : slots.Nodup)
    (hfit : ∀ slot ∈ slots, (s.number? slot).isSome = true) {values : List α}
    (hlength : values.length = slots.length) :
    (s.withValuesAt slots values).valuesAt slots = values := by
  rw [valuesAt_eq_map]
  refine List.ext_getElem ((List.length_map ..).trans hlength.symm) ?_
  intro i hi hv
  rw [List.length_map] at hi
  have hpair : (slots[i], values[i]) ∈ slots.zip values := by
    rw [← List.getElem_zip (h := by rw [List.length_zip]; omega)]
    exact List.getElem_mem _
  rw [List.getElem_map,
    s.number?_withValuesAt_of_mem hnodup hlength (hfit _ (List.getElem_mem hi)) hpair]
  rfl

/-- Writing back what was read changes nothing. -/
theorem withValuesAt_valuesAt (s : Sketch α) (slots : List Slot) :
    s.withValuesAt slots (s.valuesAt slots) = s := by
  refine eq_of_outline (s.outline_withValuesAt _ _) ?_
  intro slot
  rw [number?_withValuesAt]
  cases hnumber : s.number? slot with
  | none => rfl
  | some old =>
    rw [Option.map_some]
    cases hlast : lastWrite? slot (slots.zip (s.valuesAt slots)) with
    | none => rfl
    | some v =>
      have hwritten := lastWrite?_mem hlast
      rw [valuesAt_eq_map, ← List.map_prod_left_eq_zip] at hwritten
      obtain ⟨other, -, hpair⟩ := List.mem_map.mp hwritten
      obtain ⟨rfl, rfl⟩ := Prod.mk.inj hpair
      rw [hnumber]
      rfl

omit [Scalar α] in
/-- No write to the variables moves a held point. -/
theorem pins_withValuesAt (hs : s.WellFormed) (values : List α) :
    (s.withValuesAt s.slots values).pins = s.pins := by
  have houtline := s.outline_withValuesAt s.slots values
  refine (pins_of_outline houtline.symm ?_).symm
  intro place p q hp hfixed hq hid
  have hheld : s.pins.holds p.id = true :=
    (Pins.holds_iff ..).mpr (List.mem_map_of_mem (f := Prod.fst)
      (hs.mem_pins_of_fixed (List.mem_of_getElem? hp) hfixed))
  have hnumber (slot : Slot) (hplace : slot.place = place) :
      (s.withValuesAt s.slots values).number? slot = s.number? slot := by
    refine s.number?_withValuesAt_of_not_mem _ ?_
    intro hslot
    have hfree := isHeld_eq_false_of_mem_slots hslot
    rw [isHeld_of_point (hplace ▸ hp), hheld] at hfree
    cases hfree
  have hx := hnumber (.pointX place) rfl
  have hy := hnumber (.pointY place) rfl
  simp only [number?, Slot.readIn?, Slot.place, hp, hq, Option.bind_some, Slot.read?,
    Option.some.injEq] at hx hy
  obtain ⟨_, ⟨_, _⟩, _, _⟩ := q
  subst hx hy
  rfl

omit [Scalar α] in
/-- Once the held points are in place, the same points are held at the same places. -/
theorem pins_pinned (hs : s.WellFormed) : s.pinned.pins = s.pins := by
  have hpinned : s.pinned.WellFormed := hs.of_outline s.outline_pinned.symm
  refine (pins_of_outline s.outline_pinned.symm ?_).symm
  intro place p q hp hfixed hq hid
  have hposition := hs.position?_pinned (hs.mem_pins_of_fixed (List.mem_of_getElem? hp) hfixed)
  have hsame : s.pinned.position? p.id = some q.position :=
    hpinned.position?_eq_some_iff.mpr ⟨q, List.mem_of_getElem? hq, hid, rfl⟩
  exact Option.some.inj (hsame.symm.trans hposition)

/-- The variables of a sketch can be read and written as if they were a vector of their own. -/
structure LawfulView (s : Sketch α) : Prop where
  values_write : ∀ v : List α, v.length = s.slots.length →
    (s.withValuesAt s.slots v).valuesAt s.slots = v
  write_values : s.withValuesAt s.slots (s.valuesAt s.slots) = s
  write_write : ∀ u v : List α, u.length = s.slots.length → v.length = s.slots.length →
    (s.withValuesAt s.slots u).withValuesAt s.slots v = s.withValuesAt s.slots v
  write_outline : ∀ v : List α, (s.withValuesAt s.slots v).outline = s.outline
  write_frame : ∀ (v : List α) (slot : Slot), slot ∉ s.slots →
    (s.withValuesAt s.slots v).number? slot = s.number? slot
  slots_write : ∀ v : List α, (s.withValuesAt s.slots v).slots = s.slots
  pins_write : ∀ v : List α, (s.withValuesAt s.slots v).pins = s.pins
  slots_applyPins : (s.applyPins s.pins).slots = s.slots
  pins_applyPins : (s.applyPins s.pins).pins = s.pins

/-- The variables of every well-formed sketch are a lawful view of it. -/
theorem lawfulView_slots (hs : s.WellFormed) : s.LawfulView where
  values_write _ hv :=
    s.valuesAt_withValuesAt s.slots_nodup (fun _ hslot => number?_isSome_of_mem_slots hslot) hv
  write_values := s.withValuesAt_valuesAt s.slots
  write_write u _ _ hv := s.withValuesAt_withValuesAt u hv
  write_outline v := s.outline_withValuesAt s.slots v
  write_frame v _ hslot := s.number?_withValuesAt_of_not_mem v hslot
  slots_write v := slots_of_outline (s.outline_withValuesAt s.slots v)
  pins_write v := pins_withValuesAt hs v
  slots_applyPins := s.slots_pinned
  pins_applyPins := pins_pinned hs

open Operation

/-- A fixed point, a free one, one that a constraint holds elsewhere, and a helper point that is a
variable only as the center of an arc and a circle. -/
def mixed : Sketch Float :=
  run [.addFixedPoint ⟨0.0, 0.0⟩, .addPoint ⟨1.0, 2.0⟩, .addPoint ⟨3.0, 0.0⟩,
    .addPoint ⟨5.0, 5.0⟩, .addArc ⟨3⟩ 2.0 10.0 80.0, .addCircle ⟨3⟩ 4.0,
    .editPoint ⟨3⟩ fun p => { p with construction := true },
    .addConstraint (.fixed ⟨2⟩ ⟨3.5, 0.5⟩)] (empty "mixed")

theorem lawfulView_mixed :
    let v := [7.0, 0.0 / 0.0, -1.0, 2.0, -3.0, 0.0, 90.0, 450.0]
    let written := mixed.withValuesAt mixed.slots v
    written.valuesAt mixed.slots = v ∧
      written.slots = mixed.slots ∧
      written.pins = [(⟨0⟩, ⟨0.0, 0.0⟩), (⟨2⟩, ⟨3.5, 0.5⟩)] ∧
      (mixed.applyPins mixed.pins).slots =
        [.pointX 1, .pointY 1, .pointX 3, .pointY 3, .circleRadius 5, .arcRadius 4, .arcStart 4,
          .arcStop 4] := by
  intro v written
  have hview : mixed.LawfulView := lawfulView_slots (wellFormed_run_empty _ "mixed")
  have hslots : mixed.slots = [.pointX 1, .pointY 1, .pointX 3, .pointY 3, .circleRadius 5,
      .arcRadius 4, .arcStart 4, .arcStop 4] := by
    decide +kernel
  have hpins : mixed.pins = [(⟨0⟩, ⟨0.0, 0.0⟩), (⟨2⟩, ⟨3.5, 0.5⟩)] := by decide +kernel
  refine ⟨hview.values_write v ?_, hview.slots_write v, ?_, ?_⟩
  · rw [hslots]
    rfl
  · exact (hview.pins_write v).trans hpins
  · exact hview.slots_applyPins.trans hslots

end Sketch

end PlaneSketch
