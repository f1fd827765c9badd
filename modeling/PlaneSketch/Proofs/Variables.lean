import Mathlib.Data.List.Flatten
import PlaneSketch.Proofs.Pins
import PlaneSketch.Variables

/-!
# The variables of a sketch

Which slots are variables (`VariableMap`) is decided by the outline of a sketch, so the list stays
valid while points are put where they are held and while a minimizer changes numbers. The slots are
distinct, each of them fits its entity, and none belongs to a held point. Which ones they are can be
said without the order they are listed in: the numbers of the entities that are free. No point of a
well-formed sketch is visited a second time.
-/

namespace PlaneSketch

variable {α : Type}

namespace Sketch

variable {s t : Sketch α}

/-! ### What an outline decides -/

theorem isLive_of_outline (h : s.outline = t.outline) {d e : Entity α}
    (hde : d.outline = e.outline) : s.isLive d = t.isLive e := by
  have hconstraints : s.constraints = t.constraints := congrArg Outline.constraints h
  have hconstruction : d.isConstruction = e.isConstruction := by
    rw [← d.outline_isConstruction, hde, e.outline_isConstruction]
  have hraw : d.raw = e.raw := by rw [← d.outline_raw, hde, e.outline_raw]
  simp only [isLive, isConstrained, active, hconstraints, hconstruction, hraw]

theorem carriesCurve_of_outline (h : s.outline = t.outline) (id : PointId) :
    s.carriesCurve id = t.carriesCurve id := by
  have hconstraints : s.constraints = t.constraints := congrArg Outline.constraints h
  have hany (u : Sketch α) : u.carriesCurve id = u.outline.entities.any fun e =>
      (!e.isConstruction || u.isConstrained e.raw) && decide (id ∈ e.basePoints) := by
    simp only [carriesCurve, isLive, outline, List.any_map, Function.comp_def,
      Entity.outline_isConstruction, Entity.outline_raw, Entity.outline_basePoints]
  rw [hany, hany, h]
  simp only [isConstrained, active, hconstraints]

/-- Placed entities without their numbers. -/
def outlinePlaced (placed : List (Entity α × Nat)) : List (Entity Unit × Nat) :=
  placed.map (Prod.map Entity.outline id)

theorem outlinePlaced_zipIdx (entities : List (Entity α)) :
    outlinePlaced entities.zipIdx = (entities.map Entity.outline).zipIdx :=
  List.zipIdx_map.symm

theorem outlinePlaced_firstVisits (seen : List PointId) (placed : List (Entity α × Nat)) :
    outlinePlaced (firstVisits seen placed) = firstVisits seen (outlinePlaced placed) := by
  induction placed generalizing seen with
  | nil => rfl
  | cons pair rest ih =>
    obtain ⟨e, place⟩ := pair
    cases e with
    | point p =>
      show outlinePlaced (if p.id ∈ seen then _ else _) = if p.id ∈ seen then _ else _
      split
      · exact ih seen
      · exact congrArg _ (ih (p.id :: seen))
    | line | circle | arc => exact congrArg _ (ih seen)

theorem flatMap_of_outlinePlaced {β : Type} {f g : Entity α × Nat → List β}
    {ds es : List (Entity α × Nat)} (h : outlinePlaced ds = outlinePlaced es)
    (hfg : ∀ d e place, d.outline = e.outline → f (d, place) = g (e, place)) :
    ds.flatMap f = es.flatMap g := by
  induction ds generalizing es with
  | nil =>
    rw [List.map_eq_nil_iff.mp h.symm]
    rfl
  | cons pair ds ih =>
    obtain ⟨d, place⟩ := pair
    obtain ⟨⟨e, other⟩, es, rfl, hpair, hrest⟩ := List.map_eq_cons_iff.mp h.symm
    obtain ⟨hde, hplace⟩ := Prod.mk.inj hpair
    obtain rfl : other = place := hplace
    rw [List.flatMap_cons, List.flatMap_cons, hfg d e other hde.symm, ih hrest.symm]

theorem slots_of_outline (h : s.outline = t.outline) : s.slots = t.slots := by
  have hentities : s.entities.map Entity.outline = t.entities.map Entity.outline :=
    congrArg Outline.entities h
  have hplaced : outlinePlaced s.entities.zipIdx = outlinePlaced t.entities.zipIdx := by
    rw [outlinePlaced_zipIdx, outlinePlaced_zipIdx, hentities]
  have hvisited : outlinePlaced (firstVisits [] s.entities.zipIdx) =
      outlinePlaced (firstVisits [] t.entities.zipIdx) := by
    rw [outlinePlaced_firstVisits, outlinePlaced_firstVisits, hplaced]
  have hholds := Pins.holds_of_keys (pins_keys_of_outline h)
  have hpoints : (firstVisits [] s.entities.zipIdx).flatMap (s.pointSlots s.pins) =
      (firstVisits [] t.entities.zipIdx).flatMap (t.pointSlots t.pins) := by
    refine flatMap_of_outlinePlaced hvisited ?_
    intro d e place hde
    have hlive := isLive_of_outline h hde
    cases d <;> cases e <;> simp only [Entity.outline, Entity.point.injEq, reduceCtorEq] at hde
    case point.point p q =>
      have hid : p.id = q.id := (Point.mk.inj hde).1
      simp only [pointSlots, hlive, hid, hholds, carriesCurve_of_outline h]
    all_goals rfl
  have hcircles : s.entities.zipIdx.flatMap s.circleSlots =
      t.entities.zipIdx.flatMap t.circleSlots := by
    refine flatMap_of_outlinePlaced hplaced ?_
    intro d e place hde
    have hlive := isLive_of_outline h hde
    cases d <;> cases e <;> simp only [Entity.outline, reduceCtorEq] at hde
    case circle.circle => simp only [circleSlots, hlive]
    all_goals rfl
  have harcs : s.entities.zipIdx.flatMap s.arcSlots = t.entities.zipIdx.flatMap t.arcSlots := by
    refine flatMap_of_outlinePlaced hplaced ?_
    intro d e place hde
    have hlive := isLive_of_outline h hde
    cases d <;> cases e <;> simp only [Entity.outline, reduceCtorEq] at hde
    case arc.arc => simp only [arcSlots, hlive]
    all_goals rfl
  simp only [slots, hpoints, hcircles, harcs]

/-! ### Visits -/

theorem firstVisits_sublist (seen : List PointId) (placed : List (Entity α × Nat)) :
    (firstVisits seen placed).Sublist placed := by
  induction placed generalizing seen with
  | nil => exact List.Sublist.refl _
  | cons pair rest ih =>
    obtain ⟨e, place⟩ := pair
    cases e with
    | point p =>
      show (if p.id ∈ seen then _ else _ : List (Entity α × Nat)).Sublist _
      split
      · exact (ih seen).cons _
      · exact (ih (p.id :: seen)).cons_cons _
    | line | circle | arc => exact (ih seen).cons_cons _

theorem firstVisits_eq_self {seen : List PointId} {placed : List (Entity α × Nat)}
    (hseen : ∀ id ∈ seen, ∀ pair ∈ placed, pair.1.ref ≠ .point id)
    (hplaced : placed.Pairwise fun earlier later => earlier.1.ref ≠ later.1.ref) :
    firstVisits seen placed = placed := by
  induction placed generalizing seen with
  | nil => rfl
  | cons pair rest ih =>
    obtain ⟨e, place⟩ := pair
    obtain ⟨hfirst, hrest⟩ := List.pairwise_cons.mp hplaced
    have hseenRest : ∀ id ∈ seen, ∀ pair ∈ rest, pair.1.ref ≠ .point id :=
      fun id hid pair hpair => hseen id hid pair (List.mem_cons_of_mem _ hpair)
    cases e with
    | point p =>
      have hnew : p.id ∉ seen := fun hin => hseen p.id hin _ (List.mem_cons_self ..) rfl
      have hseenNext : ∀ id ∈ p.id :: seen, ∀ pair ∈ rest, pair.1.ref ≠ .point id := by
        refine List.forall_mem_cons.mpr ⟨fun pair hpair href => ?_, hseenRest⟩
        exact hfirst pair hpair href.symm
      rw [firstVisits, if_neg hnew, ih hseenNext hrest]
    | line | circle | arc => exact congrArg _ (ih hseenRest hrest)

/-- No point of a well-formed sketch is visited a second time. -/
theorem WellFormed.firstVisits_eq (hs : s.WellFormed) :
    firstVisits [] s.entities.zipIdx = s.entities.zipIdx := by
  refine firstVisits_eq_self nofun ?_
  have hraws : (s.entities.map Entity.raw).Pairwise (· ≠ ·) := hs.raws_ascending.imp Nat.ne_of_lt
  have hrefs : (s.entities.zipIdx.map Prod.fst).Pairwise fun d e => d.ref ≠ e.ref := by
    rw [List.zipIdx_map_fst]
    exact (List.pairwise_map.mp hraws).imp fun hne href => hne (congrArg EntityRef.raw href)
  exact (List.pairwise_map (f := Prod.fst)).mp hrefs

/-! ### The slots -/

theorem mem_pointSlots {pins : Pins α} {e : Entity α} {place : Nat} {slot : Slot}
    (h : slot ∈ s.pointSlots pins (e, place)) :
    ∃ p, e = .point p ∧ pins.holds p.id = false ∧
      (slot = .pointX place ∨ slot = .pointY place) := by
  cases e with
  | point p =>
    simp only [pointSlots] at h
    split at h
    next hcond =>
      rw [Bool.and_eq_true, Bool.not_eq_true'] at hcond
      exact ⟨p, rfl, hcond.1, List.mem_pair.mp h⟩
    next => cases h
  | line | circle | arc => cases h

theorem mem_circleSlots {e : Entity α} {place : Nat} {slot : Slot}
    (h : slot ∈ s.circleSlots (e, place)) : ∃ c, e = .circle c ∧ slot = .circleRadius place := by
  cases e with
  | circle c =>
    simp only [circleSlots] at h
    split at h
    next => exact ⟨c, rfl, List.mem_singleton.mp h⟩
    next => cases h
  | point | line | arc => cases h

theorem mem_arcSlots {e : Entity α} {place : Nat} {slot : Slot} (h : slot ∈ s.arcSlots (e, place)) :
    ∃ a, e = .arc a ∧
      (slot = .arcRadius place ∨ slot = .arcStart place ∨ slot = .arcStop place) := by
  cases e with
  | arc a =>
    simp only [arcSlots] at h
    split at h
    next =>
      rw [List.mem_cons, List.mem_pair] at h
      exact ⟨a, rfl, h⟩
    next => cases h
  | point | line | circle => cases h

theorem nodup_pointSlots (s : Sketch α) (pins : Pins α) (e : Entity α × Nat) :
    (s.pointSlots pins e).Nodup := by
  obtain ⟨e, place⟩ := e
  cases e with
  | point p => simp only [pointSlots]; split <;> simp
  | line | circle | arc => exact List.nodup_nil

theorem nodup_circleSlots (s : Sketch α) (e : Entity α × Nat) : (s.circleSlots e).Nodup := by
  obtain ⟨e, place⟩ := e
  cases e with
  | circle c => simp only [circleSlots]; split <;> simp
  | point | line | arc => exact List.nodup_nil

theorem nodup_arcSlots (s : Sketch α) (e : Entity α × Nat) : (s.arcSlots e).Nodup := by
  obtain ⟨e, place⟩ := e
  cases e with
  | arc a => simp only [arcSlots]; split <;> simp
  | point | line | circle => exact List.nodup_nil

/-- Slots that are listed entity by entity, each with its place, are distinct. -/
theorem nodup_flatMap_zipIdx {f : Entity α × Nat → List Slot} (entities : List (Entity α))
    (hnodup : ∀ e, (f e).Nodup) (hplace : ∀ e, ∀ slot ∈ f e, slot.place = e.2) :
    (entities.zipIdx.flatMap f).Nodup := by
  rw [List.nodup_flatMap]
  refine ⟨fun e _ => hnodup e, ?_⟩
  have hplaces : entities.zipIdx.Pairwise fun d e => d.2 ≠ e.2 := by
    apply List.pairwise_map.mp
    show (entities.zipIdx.map Prod.snd).Nodup
    rw [List.zipIdx_map_snd]
    exact List.nodup_range'
  refine hplaces.imp ?_
  intro d e hde slot hd he
  exact hde ((hplace d slot hd).symm.trans (hplace e slot he))

/-- Whether a solve may change the numbers of an entity. -/
def isFree (s : Sketch α) : Entity α → Bool
  | .point p => !s.pins.holds p.id && (s.isLive (.point p) || s.carriesCurve p.id)
  | e => s.isLive e

theorem mem_entitySlots_iff {slot : Slot} {e : Entity α} {place : Nat} :
    (slot ∈ s.pointSlots s.pins (e, place) ∨ slot ∈ s.circleSlots (e, place) ∨
      slot ∈ s.arcSlots (e, place)) ↔
    slot.place = place ∧ (slot.read? e).isSome = true ∧ s.isFree e = true := by
  cases e <;> cases slot <;>
    simp [pointSlots, circleSlots, arcSlots, isFree, Slot.place, Slot.read?, and_comm]

/-- A variable is a number of a free entity. -/
theorem isFree_of_mem_slots {slot : Slot} (h : slot ∈ s.slots) :
    ∃ e, s.entities[slot.place]? = some e ∧ (slot.read? e).isSome = true ∧ s.isFree e = true := by
  simp only [slots, List.mem_append, List.mem_flatMap, Prod.exists] at h
  obtain ⟨e, place, he, hslot⟩ : ∃ e place, (e, place) ∈ s.entities.zipIdx ∧
      (slot ∈ s.pointSlots s.pins (e, place) ∨ slot ∈ s.circleSlots (e, place) ∨
        slot ∈ s.arcSlots (e, place)) := by
    rcases h with (⟨e, place, he, hslot⟩ | ⟨e, place, he, hslot⟩) | ⟨e, place, he, hslot⟩
    · exact ⟨e, place, (firstVisits_sublist [] _).subset he, Or.inl hslot⟩
    · exact ⟨e, place, he, Or.inr (Or.inl hslot)⟩
    · exact ⟨e, place, he, Or.inr (Or.inr hslot)⟩
  obtain ⟨rfl, hfree⟩ := mem_entitySlots_iff.mp hslot
  exact ⟨e, List.mem_zipIdx_iff_getElem?.mp he, hfree⟩

/-- A number is a variable exactly when its entity is free. -/
theorem WellFormed.mem_slots_iff (hs : s.WellFormed) {slot : Slot} :
    slot ∈ s.slots ↔ ∃ e, s.entities[slot.place]? = some e ∧ (slot.read? e).isSome = true ∧
      s.isFree e = true := by
  refine ⟨isFree_of_mem_slots, ?_⟩
  rintro ⟨e, he, hfree⟩
  have hplaced : (e, slot.place) ∈ s.entities.zipIdx := List.mem_zipIdx_iff_getElem?.mpr he
  simp only [slots, hs.firstVisits_eq, List.mem_append, List.mem_flatMap]
  rcases mem_entitySlots_iff.mpr ⟨rfl, hfree⟩ with hslot | hslot | hslot
  · exact Or.inl (Or.inl ⟨_, hplaced, hslot⟩)
  · exact Or.inl (Or.inr ⟨_, hplaced, hslot⟩)
  · exact Or.inr ⟨_, hplaced, hslot⟩

/-- A variable is a number of its entity, and of no held point. -/
theorem mem_slots {slot : Slot} (h : slot ∈ s.slots) :
    ∃ e, s.entities[slot.place]? = some e ∧ (slot.read? e).isSome = true ∧
      ∀ p, e = .point p → s.pins.holds p.id = false := by
  obtain ⟨e, he, hread, hfree⟩ := isFree_of_mem_slots h
  refine ⟨e, he, hread, ?_⟩
  rintro p rfl
  rw [isFree, Bool.and_eq_true, Bool.not_eq_true'] at hfree
  exact hfree.1

theorem number?_isSome_of_mem_slots {slot : Slot} (h : slot ∈ s.slots) :
    (s.number? slot).isSome = true := by
  obtain ⟨e, he, hread, -⟩ := mem_slots h
  rw [number?, Slot.readIn?, he]
  exact hread

theorem slots_nodup (s : Sketch α) : s.slots.Nodup := by
  have hpoints : ((firstVisits [] s.entities.zipIdx).flatMap (s.pointSlots s.pins)).Nodup := by
    refine List.Nodup.sublist ((firstVisits_sublist [] _).flatMap _) ?_
    refine nodup_flatMap_zipIdx _ (s.nodup_pointSlots s.pins) ?_
    intro e slot hslot
    obtain ⟨p, -, -, rfl | rfl⟩ := mem_pointSlots hslot <;> rfl
  have hcircles : (s.entities.zipIdx.flatMap s.circleSlots).Nodup := by
    refine nodup_flatMap_zipIdx _ s.nodup_circleSlots ?_
    intro e slot hslot
    obtain ⟨c, -, rfl⟩ := mem_circleSlots hslot
    rfl
  have harcs : (s.entities.zipIdx.flatMap s.arcSlots).Nodup := by
    refine nodup_flatMap_zipIdx _ s.nodup_arcSlots ?_
    intro e slot hslot
    obtain ⟨a, -, rfl | rfl | rfl⟩ := mem_arcSlots hslot <;> rfl
  -- slots of different groups are of different kinds
  refine List.Nodup.append (List.Nodup.append hpoints hcircles ?_) harcs ?_
  · intro slot hpoint hcircle
    obtain ⟨d, -, hd⟩ := List.mem_flatMap.mp hpoint
    obtain ⟨e, -, he⟩ := List.mem_flatMap.mp hcircle
    obtain ⟨c, -, rfl⟩ := mem_circleSlots he
    obtain ⟨p, -, -, hslot | hslot⟩ := mem_pointSlots hd <;> cases hslot
  · intro slot hother harc
    obtain ⟨e, -, he⟩ := List.mem_flatMap.mp harc
    obtain ⟨a, -, harcSlot⟩ := mem_arcSlots he
    rcases List.mem_append.mp hother with hpoint | hcircle
    · obtain ⟨d, -, hd⟩ := List.mem_flatMap.mp hpoint
      obtain ⟨p, -, -, rfl | rfl⟩ := mem_pointSlots hd <;> simp at harcSlot
    · obtain ⟨d, -, hd⟩ := List.mem_flatMap.mp hcircle
      obtain ⟨c, -, rfl⟩ := mem_circleSlots hd
      simp at harcSlot

theorem length_valuesAt [Scalar α] (s : Sketch α) (slots : List Slot) :
    (s.valuesAt slots).length = slots.length :=
  List.length_map ..

end Sketch

end PlaneSketch
