import PlaneSketch.Proofs.Arena
import PlaneSketch.Sketch.Validity

/-!
# Held points

Which points a sketch holds (`pinned_points`) is decided by its outline, so moving points changes it
no more than any other change of numbers. Holding is a map from points to positions: no point is
held twice, every held point is a point of the sketch, and once all of them are in place each one is
where it is held and nothing else has moved.
-/

namespace PlaneSketch

variable {α : Type}

namespace Sketch

variable {s t : Sketch α}

/-! ### What an outline decides -/

theorem entity?_of_outline (h : s.outline = t.outline) (raw : Nat) :
    (s.entity? raw).map Entity.outline = (t.entity? raw).map Entity.outline := by
  have hlook (u : Sketch α) : (u.entity? raw).map Entity.outline =
      u.outline.index[raw]?.bind (u.outline.entities[·]?) := by
    simp only [entity?, outline, Option.map_bind, Function.comp_def, List.getElem?_map]
  rw [hlook, hlook, h]

/-- Under an id both sketches find nothing, or entities that differ in their numbers only. -/
theorem entity?_cases_of_outline (h : s.outline = t.outline) (raw : Nat) :
    (s.entity? raw = none ∧ t.entity? raw = none) ∨
      ∃ d e, s.entity? raw = some d ∧ t.entity? raw = some e ∧ d.outline = e.outline := by
  have hentity := entity?_of_outline h raw
  cases hs : s.entity? raw with
  | none =>
    rw [hs] at hentity
    exact Or.inl ⟨rfl, Option.map_eq_none_iff.mp hentity.symm⟩
  | some d =>
    rw [hs] at hentity
    obtain ⟨e, ht, hde⟩ := Option.map_eq_some_iff.mp hentity.symm
    exact Or.inr ⟨d, e, rfl, ht, hde.symm⟩

/-- What is found under an id depends on the numbers of that entity only. -/
theorem entity?_eq_of_outline (h : s.outline = t.outline) {raw : Nat}
    (hnumbers : ∀ slot : Slot, s.index[raw]? = some slot.place →
      s.number? slot = t.number? slot) :
    s.entity? raw = t.entity? raw := by
  have hindex : s.index = t.index := congrArg Outline.index h
  rcases entity?_cases_of_outline h raw with ⟨hs, ht⟩ | ⟨d, e, hs, ht, hde⟩
  · rw [hs, ht]
  · rw [hs, ht]
    obtain ⟨place, hplace, hd⟩ := Option.bind_eq_some_iff.mp hs
    have he : t.entities[place]? = some e := by
      rwa [entity?, ← hindex, hplace, Option.bind_some] at ht
    rw [Entity.eq_of_outline place hde]
    rintro slot rfl
    have hnumber := hnumbers slot hplace
    rwa [number?, Slot.readIn?, hd, number?, Slot.readIn?, he] at hnumber

theorem point?_fixed_of_outline (h : s.outline = t.outline) (id : PointId) :
    (s.point? id).map (·.fixed) = (t.point? id).map (·.fixed) := by
  unfold point?
  rcases entity?_cases_of_outline h id.raw with ⟨hs, ht⟩ | ⟨d, e, hs, ht, hde⟩
  · rw [hs, ht]
  · rw [hs, ht]
    cases d <;> cases e <;> simp only [Entity.outline, Entity.point.injEq, reduceCtorEq] at hde
    case point.point p q =>
      have hfixed : p.fixed = q.fixed := (Point.mk.inj hde).2.2.1
      simp only [Option.map_some, hfixed]
    all_goals rfl

theorem heldBy?_of_outline (h : s.outline = t.outline) (c : Constraint α) :
    s.heldBy? c = t.heldBy? c := by
  have hany (u : Sketch α) (id : PointId) :
      (u.point? id).any (!·.fixed) = ((u.point? id).map (·.fixed)).any (!·) := by
    rw [Option.any_map]
  unfold heldBy?
  simp only [hany, point?_fixed_of_outline h]

/-- The id of an entity, if it is a point that no solve moves. -/
def fixedId? {β : Type} : Entity β → Option PointId
  | .point p => if p.fixed then some p.id else none
  | _ => none

/-- Something about an entity, if it is a point that no solve moves. -/
def fixedWith? {β γ : Type} (f : Point β → γ) : Entity β → Option γ
  | .point p => if p.fixed then some (f p) else none
  | _ => none

theorem fixed_points_map {β : Type} (s : Sketch α) (f : Point α → β) :
    (s.points.filter (·.fixed)).map f = s.entities.filterMap (fixedWith? f) := by
  unfold points
  induction s.entities with
  | nil => rfl
  | cons e rest ih =>
    cases e with
    | point p => cases hp : p.fixed <;> simp [fixedWith?, hp, ih]
    | line | circle | arc => simpa [List.filterMap_cons, fixedWith?] using ih

theorem fixed_points_ids (s : Sketch α) :
    (s.points.filter (·.fixed)).map (·.id) = s.outline.entities.filterMap fixedId? := by
  show _ = (s.entities.map Entity.outline).filterMap fixedId?
  rw [fixed_points_map, List.filterMap_map]
  refine List.filterMap_congr ?_
  intro e _
  cases e <;> rfl

/-! ### Holding -/

theorem Pins.keys_hold (pins : Pins α) (id : PointId) (position : Vec α) :
    (pins.hold id position).map Prod.fst =
      if id ∈ pins.map Prod.fst then pins.map Prod.fst else pins.map Prod.fst ++ [id] := by
  induction pins with
  | nil => simp [hold]
  | cons pin rest ih =>
    obtain ⟨other, held⟩ := pin
    unfold hold
    by_cases hother : other = id
    · simp [hother]
    · have hcons : id ∈ other :: rest.map Prod.fst ↔ id ∈ rest.map Prod.fst := by
        simp [Ne.symm hother]
      rw [if_neg hother, List.map_cons, ih]
      by_cases hin : id ∈ rest.map Prod.fst
      · simp only [List.map_cons, hin, hcons, if_true]
      · simp only [List.map_cons, hin, hcons, if_false, List.cons_append]

theorem Pins.keys_foldl_hold {pins pins' : Pins α} (held : List (PointId × Vec α))
    (h : pins.map Prod.fst = pins'.map Prod.fst) :
    (held.foldl (fun pins (id, position) => pins.hold id position) pins).map Prod.fst =
      (held.foldl (fun pins (id, position) => pins.hold id position) pins').map Prod.fst := by
  induction held generalizing pins pins' with
  | nil => exact h
  | cons pin rest ih =>
    refine ih ?_
    rw [keys_hold, keys_hold, h]

theorem Pins.nodup_foldl_hold {pins : Pins α} (held : List (PointId × Vec α))
    (h : (pins.map Prod.fst).Nodup) :
    ((held.foldl (fun pins (id, position) => pins.hold id position) pins).map Prod.fst).Nodup := by
  induction held generalizing pins with
  | nil => exact h
  | cons pin rest ih =>
    refine ih ?_
    rw [keys_hold]
    split
    next => exact h
    next hout =>
      rw [List.nodup_append]
      refine ⟨h, List.nodup_singleton _, ?_⟩
      intro key hkey id hid hne
      rw [List.mem_singleton.mp hid] at hne
      exact hout (hne ▸ hkey)

theorem Pins.mem_hold {pins : Pins α} {id : PointId} {position : Vec α} {pin : PointId × Vec α}
    (h : pin ∈ pins.hold id position) : pin = (id, position) ∨ pin ∈ pins := by
  induction pins with
  | nil => exact Or.inl (List.mem_singleton.mp h)
  | cons first rest ih =>
    obtain ⟨other, held⟩ := first
    unfold hold at h
    split at h
    · rcases List.mem_cons.mp h with hnew | hrest
      · exact Or.inl hnew
      · exact Or.inr (List.mem_cons_of_mem _ hrest)
    · rcases List.mem_cons.mp h with hfirst | hrest
      · exact Or.inr (hfirst ▸ List.mem_cons_self ..)
      · exact (ih hrest).imp_right (List.mem_cons_of_mem _)

theorem Pins.mem_foldl_hold {pins : Pins α} {held : List (PointId × Vec α)} {pin : PointId × Vec α}
    (h : pin ∈ held.foldl (fun pins (id, position) => pins.hold id position) pins) :
    pin ∈ pins ∨ pin ∈ held := by
  induction held generalizing pins with
  | nil => exact Or.inl h
  | cons first rest ih =>
    rcases ih h with hhold | hrest
    · rcases mem_hold hhold with hnew | hold
      · exact Or.inr (hnew ▸ List.mem_cons_self ..)
      · exact Or.inl hold
    · exact Or.inr (List.mem_cons_of_mem _ hrest)

theorem Pins.holds_iff (pins : Pins α) (id : PointId) :
    pins.holds id = true ↔ id ∈ pins.map Prod.fst := by
  simp only [holds, List.any_eq_true, decide_eq_true_eq, List.mem_map]

theorem Pins.holds_of_keys {pins pins' : Pins α} (h : pins.map Prod.fst = pins'.map Prod.fst)
    (id : PointId) : pins.holds id = pins'.holds id := by
  rw [Bool.eq_iff_iff, holds_iff, holds_iff, h]

theorem pins_keys_of_outline (h : s.outline = t.outline) :
    s.pins.map Prod.fst = t.pins.map Prod.fst := by
  have hconstraints : s.constraints = t.constraints := congrArg Outline.constraints h
  have hheld : s.constraints.filterMap s.heldBy? = t.constraints.filterMap t.heldBy? := by
    rw [hconstraints]
    exact List.filterMap_congr fun c _ => heldBy?_of_outline h c
  unfold pins
  rw [hheld]
  refine Pins.keys_foldl_hold _ ?_
  simp only [List.map_map, Function.comp_def, fixed_points_ids, h]

/-- What a sketch holds is a fixed point of it or named by a constraint that holds a point. -/
theorem mem_pins {id : PointId} {position : Vec α} (h : (id, position) ∈ s.pins) :
    (∃ p, .point p ∈ s.entities ∧ p.id = id ∧ p.position = position) ∨
      ∃ c ∈ s.constraints, c.isActive = true ∧ c.requirement = .fixed id position ∧
        ∃ p, s.point? id = some p := by
  rcases Pins.mem_foldl_hold h with hfixed | hheld
  · left
    obtain ⟨p, hp, heq⟩ := List.mem_map.mp hfixed
    obtain ⟨e, he, hpoint⟩ := List.mem_filterMap.mp (List.mem_filter.mp hp).1
    cases e with
    | point q =>
      cases hpoint
      cases heq
      exact ⟨p, he, rfl, rfl⟩
    | line | circle | arc => cases hpoint
  · right
    obtain ⟨c, hc, hpin⟩ := List.mem_filterMap.mp hheld
    unfold heldBy? at hpin
    split at hpin
    next id' position' hreq =>
      split at hpin
      next hcond =>
        cases hpin
        rw [Bool.and_eq_true, Option.any_eq_true] at hcond
        obtain ⟨hactive, p, hp, -⟩ := hcond
        exact ⟨c, hc, hactive, hreq, p, hp⟩
      next => cases hpin
    next => cases hpin

theorem points_raws_sublist (s : Sketch α) :
    (s.points.map (·.id.raw)).Sublist (s.entities.map Entity.raw) := by
  unfold points
  induction s.entities with
  | nil => exact List.Sublist.slnil
  | cons e rest ih =>
    cases e with
    | point p => exact ih.cons_cons p.id.raw
    | line | circle | arc => exact ih.cons _

theorem WellFormed.fixed_pins_nodup (h : s.WellFormed) :
    (((s.points.filter (·.fixed)).map fun p => (p.id, p.position)).map Prod.fst).Nodup := by
  have hraws : (s.points.map (·.id.raw)).Nodup :=
    (h.raws_ascending.sublist s.points_raws_sublist).imp Nat.ne_of_lt
  have hfixed : ((s.points.filter (·.fixed)).map (·.id.raw)).Nodup :=
    hraws.sublist (List.filter_sublist.map _)
  rw [List.map_map]
  refine List.Nodup.of_map PointId.raw ?_
  rw [List.map_map]
  exact hfixed

/-- No point is held twice. -/
theorem WellFormed.pins_nodup (h : s.WellFormed) : (s.pins.map Prod.fst).Nodup :=
  Pins.nodup_foldl_hold _ h.fixed_pins_nodup

theorem WellFormed.exists_point_of_mem_pins (h : s.WellFormed) {id : PointId} {position : Vec α}
    (hin : (id, position) ∈ s.pins) : ∃ p, s.point? id = some p := by
  rcases mem_pins hin with ⟨p, hp, hid, -⟩ | ⟨_, -, -, -, p, hp⟩
  · exact ⟨p, h.point?_eq_some_iff.mpr ⟨hp, hid⟩⟩
  · exact ⟨p, hp⟩

end Sketch

/-! ### Placing -/

/-- The entity, moved if it is the point with the id. -/
def Entity.moved (id : PointId) (position : Vec α) : Entity α → Entity α
  | .point p => if p.id = id then .point { p with position := position } else .point p
  | e => e

theorem Entity.moved_point_self {id : PointId} (position : Vec α) {p : Point α} (h : p.id = id) :
    (Entity.point p).moved id position = .point { p with position := position } :=
  if_pos h

theorem Entity.moved_point_of_ne {id : PointId} (position : Vec α) {p : Point α} (h : p.id ≠ id) :
    (Entity.point p).moved id position = .point p :=
  if_neg h

theorem Entity.moved_of_raw_ne {id : PointId} (position : Vec α) {e : Entity α}
    (h : e.raw ≠ id.raw) : e.moved id position = e := by
  cases e with
  | point p =>
    refine moved_point_of_ne position ?_
    rintro rfl
    exact h rfl
  | line | circle | arc => rfl

namespace Sketch

variable {s t : Sketch α}

theorem outline_modifyEntity (s : Sketch α) (raw : Nat) {f : Entity α → Entity α}
    (hf : ∀ e, (f e).outline = e.outline) : (s.modifyEntity raw f).outline = s.outline := by
  unfold modifyEntity
  split
  next place _ =>
    simp only [outline, map_modify_of_keeps hf]
  next => rfl

theorem outline_place (s : Sketch α) (id : PointId) (position : Vec α) :
    (s.place id position).outline = s.outline := by
  unfold place
  split
  · rfl
  · refine outline_modifyEntity s id.raw ?_
    intro e
    cases e <;> rfl

theorem outline_applyPins (s : Sketch α) (pins : Pins α) :
    (s.applyPins pins).outline = s.outline := by
  unfold applyPins
  induction pins generalizing s with
  | nil => rfl
  | cons pin rest ih => rw [List.foldl_cons, ih, outline_place]

theorem entity?_modifyEntity (s : Sketch α) (raw other : Nat) (f : Entity α → Entity α) :
    (s.modifyEntity raw f).entity? other =
      if s.index[other]? = s.index[raw]? then (s.entity? other).map f else s.entity? other := by
  unfold modifyEntity entity?
  cases hraw : s.index[raw]? with
  | none =>
    by_cases hsame : s.index[other]? = none
    · rw [if_pos hsame, hsame]
      rfl
    · rw [if_neg hsame]
  | some place =>
    dsimp only
    cases s.index[other]? with
    | none => rfl
    | some elsewhere =>
      rw [Option.bind_some, Option.bind_some, List.getElem?_modify]
      by_cases hsame : elsewhere = place
      · subst hsame
        simp
      · simp [hsame, Ne.symm hsame]

/-- Placing a point tells on every id that is found at the same place, and on no other. -/
theorem position?_place (s : Sketch α) (id other : PointId) (position : Vec α) :
    (s.place id position).position? other =
      if s.index[other.raw]? = s.index[id.raw]? then (s.position? id).map fun _ => position
      else s.position? other := by
  unfold place
  by_cases hindex : s.index[other.raw]? = s.index[id.raw]?
  · have hentity : s.entity? other.raw = s.entity? id.raw := by simp only [entity?, hindex]
    rw [if_pos hindex]
    cases hid : s.point? id with
    | none =>
      have hother : s.point? other = none := by rw [← hid, point?, hentity, point?]
      simp only [position?, hid, hother, Option.map_none]
    | some p =>
      have hpoint := s.point?_eq_some_iff_entity?.mp hid
      simp only [position?, point?, entity?_modifyEntity, if_pos hindex, hentity, hpoint,
        Option.map_some]
  · rw [if_neg hindex]
    cases s.point? id with
    | none => rfl
    | some p => simp only [position?, point?, entity?_modifyEntity, if_neg hindex]

theorem isSome_position?_of_outline (h : s.outline = t.outline) (id : PointId) :
    (s.position? id).isSome = (t.position? id).isSome := by
  have hfixed := congrArg Option.isSome (point?_fixed_of_outline h id)
  rw [Option.isSome_map, Option.isSome_map] at hfixed
  simp only [position?, Option.isSome_map, hfixed]

/-- Placing points where another sketch of the same outline has them brings the two together. -/
theorem position?_applyPins_of_outline (h : s.outline = t.outline) {pins : Pins α}
    (hpins : ∀ pin ∈ pins, t.position? pin.1 = some pin.2) {id : PointId}
    (hid : s.position? id = t.position? id ∨ id ∈ pins.map Prod.fst) :
    (s.applyPins pins).position? id = t.position? id := by
  induction pins generalizing s with
  | nil =>
    rcases hid with hsame | hnone
    · exact hsame
    · cases hnone
  | cons pin rest ih =>
    show ((s.place pin.1 pin.2).applyPins rest).position? id = t.position? id
    have hpin : t.position? pin.1 = some pin.2 := hpins pin (List.mem_cons_self ..)
    have hrest : ∀ other ∈ rest, t.position? other.1 = some other.2 :=
      fun other hother => hpins other (List.mem_cons_of_mem _ hother)
    refine ih ((s.outline_place ..).trans h) hrest ?_
    rw [position?_place]
    split
    next hindex =>
      -- the id is found where the pin is placed, and there the other sketch has the same position
      left
      have hindex' : s.index = t.index := congrArg Outline.index h
      rw [hindex'] at hindex
      obtain ⟨position, hposition⟩ : ∃ position, s.position? pin.1 = some position := by
        rw [← Option.isSome_iff_exists, isSome_position?_of_outline h, hpin]
        rfl
      have hthere : t.position? id = t.position? pin.1 := by
        simp only [position?, point?, entity?, hindex]
      rw [hposition, hthere, hpin]
      rfl
    next hindex =>
      rcases hid with hsame | hin
      · exact Or.inl hsame
      · rcases List.mem_cons.mp hin with rfl | hlater
        · exact absurd rfl hindex
        · exact Or.inr hlater

theorem WellFormed.place (h : s.WellFormed) (id : PointId) (position : Vec α) :
    (s.place id position).WellFormed :=
  h.of_outline (s.outline_place id position).symm

theorem WellFormed.entities_place (h : s.WellFormed) (id : PointId) (position : Vec α) :
    (s.place id position).entities = s.entities.map (Entity.moved id position) := by
  unfold Sketch.place
  cases hp : s.point? id with
  | none =>
    have hmoved : ∀ e ∈ s.entities, e.moved id position = e := by
      intro e he
      cases e with
      | point p =>
        refine Entity.moved_point_of_ne position ?_
        intro hid
        rw [h.point?_eq_some_iff.mpr ⟨he, hid⟩] at hp
        cases hp
      | line | circle | arc => rfl
    rw [List.map_congr_left hmoved, List.map_id']
  | some p =>
    obtain ⟨hmem, rfl⟩ := h.point?_eq_some_iff.mp hp
    obtain ⟨place, hplace⟩ := List.getElem?_of_mem hmem
    have hindex : s.index[p.id.raw]? = some place := h.index_of_getElem? hplace
    simp only [Sketch.modifyEntity, hindex]
    apply List.ext_getElem?
    intro other
    rw [List.getElem?_modify, List.getElem?_map]
    cases hother : s.entities[other]? with
    | none => rfl
    | some e =>
      by_cases hsame : place = other
      · subst hsame
        rw [hplace] at hother
        cases hother
        simp [Entity.moved]
      · -- another place holds another id
        have hraw : e.raw ≠ p.id.raw := by
          intro heq
          have hfound := h.index_of_getElem? hother
          rw [heq, hindex] at hfound
          exact hsame (Option.some.inj hfound)
        simp [hsame, Entity.moved_of_raw_ne position hraw]

theorem WellFormed.entity?_place (h : s.WellFormed) (id : PointId) (position : Vec α) (raw : Nat) :
    (s.place id position).entity? raw = (s.entity? raw).map (Entity.moved id position) := by
  have hindex : (s.place id position).index = s.index :=
    congrArg Outline.index (s.outline_place id position)
  simp only [entity?, hindex, h.entities_place, List.getElem?_map, Option.map_bind,
    Function.comp_def]

theorem WellFormed.position?_place_self (h : s.WellFormed) {id : PointId} {p : Point α}
    (hp : s.point? id = some p) (position : Vec α) :
    (s.place id position).position? id = some position := by
  have hid := (h.point?_eq_some_iff.mp hp).2
  rw [point?_eq_some_iff_entity?] at hp
  simp only [position?, point?, h.entity?_place, hp, Option.map_some,
    Entity.moved_point_self position hid]

theorem WellFormed.position?_place_of_ne (h : s.WellFormed) {id other : PointId}
    (hne : other ≠ id) (position : Vec α) :
    (s.place id position).position? other = s.position? other := by
  have hentity : (s.place id position).entity? other.raw = s.entity? other.raw := by
    rw [h.entity?_place]
    cases he : s.entity? other.raw with
    | none => rfl
    | some e =>
      have hraw : e.raw ≠ id.raw := by
        rw [(h.entity?_eq_some_iff.mp he).2]
        exact fun heq => hne (PointId.mk.injEq .. ▸ heq)
      rw [Option.map_some, Entity.moved_of_raw_ne position hraw]
  simp only [position?, point?, hentity]

theorem WellFormed.number?_place (h : s.WellFormed) (id : PointId) (position : Vec α) {slot : Slot}
    (hfree : ∀ p, s.entities[slot.place]? = some (.point p) → p.id ≠ id) :
    (s.place id position).number? slot = s.number? slot := by
  unfold number? Slot.readIn?
  rw [h.entities_place, List.getElem?_map]
  cases he : s.entities[slot.place]? with
  | none => rfl
  | some e =>
    cases e with
    | point p => simp [Entity.moved, hfree p he]
    | line | circle | arc => rfl

theorem WellFormed.position?_applyPins_of_not_mem (h : s.WellFormed) {pins : Pins α} {id : PointId}
    (hout : id ∉ pins.map Prod.fst) : (s.applyPins pins).position? id = s.position? id := by
  unfold applyPins
  induction pins generalizing s with
  | nil => rfl
  | cons pin rest ih =>
    rw [List.map_cons, List.mem_cons, not_or] at hout
    rw [List.foldl_cons, ih (h.place ..) hout.2, h.position?_place_of_ne hout.1]

/-- Once they are placed, distinct points are where they are held. -/
theorem WellFormed.position?_applyPins (h : s.WellFormed) {pins : Pins α}
    (hkeys : (pins.map Prod.fst).Nodup)
    (hpoints : ∀ pin ∈ pins, (s.point? pin.1).isSome = true) {id : PointId} {position : Vec α}
    (hin : (id, position) ∈ pins) : (s.applyPins pins).position? id = some position := by
  induction pins generalizing s with
  | nil => cases hin
  | cons pin rest ih =>
    rw [List.map_cons, List.nodup_cons] at hkeys
    show ((s.place pin.1 pin.2).applyPins rest).position? id = some position
    rcases List.mem_cons.mp hin with rfl | hrest
    · obtain ⟨p, hp⟩ := Option.isSome_iff_exists.mp (hpoints _ (List.mem_cons_self ..))
      rw [(h.place ..).position?_applyPins_of_not_mem hkeys.1, h.position?_place_self hp]
    · refine ih (h.place ..) hkeys.2 ?_ hrest
      intro other hother
      have hfixed := point?_fixed_of_outline (s.outline_place pin.1 pin.2) other.1
      rw [← Option.isSome_map, hfixed, Option.isSome_map]
      exact hpoints other (List.mem_cons_of_mem _ hother)

theorem WellFormed.number?_applyPins (h : s.WellFormed) {pins : Pins α} {slot : Slot}
    (hfree : ∀ p, s.entities[slot.place]? = some (.point p) → pins.holds p.id = false) :
    (s.applyPins pins).number? slot = s.number? slot := by
  induction pins generalizing s with
  | nil => rfl
  | cons pin rest ih =>
    show ((s.place pin.1 pin.2).applyPins rest).number? slot = s.number? slot
    have hhead : ∀ p, s.entities[slot.place]? = some (.point p) → p.id ≠ pin.1 := by
      intro p hp heq
      have hheld := hfree p hp
      simp [Pins.holds, heq] at hheld
    rw [ih (h.place ..), h.number?_place _ _ hhead]
    intro q hq
    rw [h.entities_place, List.getElem?_map] at hq
    obtain ⟨e, he, hmoved⟩ := Option.map_eq_some_iff.mp hq
    cases e with
    | point p =>
      have hheld := hfree p he
      simp only [Pins.holds, List.any_cons, Bool.or_eq_false_iff] at hheld
      rw [Entity.moved_point_of_ne pin.2 (hhead p he)] at hmoved
      cases hmoved
      exact hheld.2
    | line | circle | arc => cases hmoved

end Sketch

end PlaneSketch
