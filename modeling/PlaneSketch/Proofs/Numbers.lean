import PlaneSketch.Variables
import Mathlib.Data.List.Nodup

/-!
# The numbers of a sketch

A sketch is its outline (everything but the coordinates, radii and angles of its entities) together
with the number in each slot. Writing values into slots (`write`) keeps the outline and every slot
that is not written; of several values for one slot the last one stands. So a list of slots that is
written once more, with a value for each of them, forgets what was written there before.
-/

namespace PlaneSketch

variable {α : Type}

/-! ### Outlines -/

/-- The entity without its numbers: kind, id, references and flags. -/
def Entity.outline : Entity α → Entity Unit
  | .point p => .point ⟨p.id, ⟨(), ()⟩, p.fixed, p.construction⟩
  | .line l => .line l
  | .circle c => .circle ⟨c.id, c.center, (), c.construction⟩
  | .arc a => .arc ⟨a.id, a.center, (), (), (), a.construction⟩

theorem Entity.outline_ref (e : Entity α) : e.outline.ref = e.ref := by
  cases e <;> rfl

theorem Entity.outline_raw (e : Entity α) : e.outline.raw = e.raw :=
  congrArg EntityRef.raw e.outline_ref

theorem Entity.outline_isConstruction (e : Entity α) :
    e.outline.isConstruction = e.isConstruction := by
  cases e <;> rfl

theorem Entity.outline_basePoints (e : Entity α) : e.outline.basePoints = e.basePoints := by
  cases e <;> rfl

/-- A sketch without the numbers of its entities. -/
structure Outline (α : Type) where
  name : String
  entities : List (Entity Unit)
  index : Std.TreeMap Nat Nat
  constraints : List (Constraint α)
  nextEntity : Nat
  nextConstraint : Nat
  removed : List Nat

def Sketch.outline (s : Sketch α) : Outline α :=
  ⟨s.name, s.entities.map Entity.outline, s.index, s.constraints, s.nextEntity, s.nextConstraint,
    s.removed⟩

/-! ### Numbers -/

/-- The number in a slot of some entities. -/
def Slot.readIn? (slot : Slot) (entities : List (Entity α)) : Option α :=
  (entities[slot.place]?).bind slot.read?

/-- The number in a slot of the sketch; none where the slot does not fit its entity. -/
def Sketch.number? (s : Sketch α) (slot : Slot) : Option α := slot.readIn? s.entities

theorem Slot.write_outline (slot : Slot) (v : α) (e : Entity α) :
    (slot.write v e).outline = e.outline := by
  cases slot <;> cases e <;> rfl

theorem Slot.read?_write_self (slot : Slot) (v : α) (e : Entity α) :
    slot.read? (slot.write v e) = (slot.read? e).map fun _ => v := by
  cases slot <;> cases e <;> rfl

theorem Slot.read?_write_of_ne {slot other : Slot} (hplace : slot.place = other.place)
    (hne : other ≠ slot) (v : α) (e : Entity α) : other.read? (slot.write v e) = other.read? e := by
  cases slot <;> cases other <;> simp only [place] at hplace <;> subst hplace <;>
    first | exact absurd rfl hne | (cases e <;> rfl)

theorem Slot.readIn?_modify_self (slot : Slot) (v : α) (entities : List (Entity α)) :
    slot.readIn? (entities.modify slot.place (slot.write v)) =
      (slot.readIn? entities).map fun _ => v := by
  unfold readIn?
  rw [List.getElem?_modify]
  cases entities[slot.place]? with
  | none => rfl
  | some e => simp [read?_write_self]

theorem Slot.readIn?_modify_of_ne {slot other : Slot} (hne : other ≠ slot) (v : α)
    (entities : List (Entity α)) :
    other.readIn? (entities.modify slot.place (slot.write v)) = other.readIn? entities := by
  unfold readIn?
  rw [List.getElem?_modify]
  cases entities[other.place]? with
  | none => rfl
  | some e =>
    by_cases hplace : slot.place = other.place
    · simp [hplace, read?_write_of_ne hplace hne]
    · simp [hplace]

theorem Slot.isSome_read?_outline (slot : Slot) (e : Entity α) :
    (slot.read? e.outline).isSome = (slot.read? e).isSome := by
  cases slot <;> cases e <;> rfl

theorem Sketch.isSome_number?_of_outline {s t : Sketch α} (h : s.outline = t.outline)
    (slot : Slot) : (s.number? slot).isSome = (t.number? slot).isSome := by
  have hlook (u : Sketch α) : (u.number? slot).isSome =
      (u.outline.entities[slot.place]?).any fun e => (slot.read? e).isSome := by
    show ((u.entities[slot.place]?).bind slot.read?).isSome =
      ((u.entities.map Entity.outline)[slot.place]?).any _
    rw [List.getElem?_map]
    cases u.entities[slot.place]? with
    | none => rfl
    | some e => exact (slot.isSome_read?_outline e).symm
  rw [hlook, hlook, h]

/-- An entity is its outline and the numbers in its slots. -/
theorem Entity.eq_of_outline {d e : Entity α} (place : Nat) (houtline : d.outline = e.outline)
    (hread : ∀ slot : Slot, slot.place = place → slot.read? d = slot.read? e) : d = e := by
  cases d <;> cases e <;> simp only [Entity.outline, Entity.point.injEq, Entity.line.injEq,
    Entity.circle.injEq, Entity.arc.injEq, reduceCtorEq] at houtline
  case point.point p q =>
    have hx := hread (.pointX place) rfl
    have hy := hread (.pointY place) rfl
    obtain ⟨_, ⟨_, _⟩, _, _⟩ := p
    obtain ⟨_, ⟨_, _⟩, _, _⟩ := q
    simp_all [Slot.read?]
  case line.line => rw [houtline]
  case circle.circle c d =>
    have hr := hread (.circleRadius place) rfl
    cases c; cases d
    simp_all [Slot.read?]
  case arc.arc a b =>
    have hr := hread (.arcRadius place) rfl
    have hstart := hread (.arcStart place) rfl
    have hstop := hread (.arcStop place) rfl
    cases a; cases b
    simp_all [Slot.read?]

/-- A sketch is its outline and the numbers in its slots. -/
theorem Sketch.eq_of_outline {s t : Sketch α} (houtline : s.outline = t.outline)
    (hnumber : ∀ slot, s.number? slot = t.number? slot) : s = t := by
  have hentities : s.entities = t.entities := by
    have hmap : s.entities.map Entity.outline = t.entities.map Entity.outline :=
      congrArg Outline.entities houtline
    apply List.ext_getElem?
    intro place
    have hplace := congrArg (·[place]?) hmap
    simp only [List.getElem?_map] at hplace
    cases hs : s.entities[place]? with
    | none =>
      cases ht : t.entities[place]? with
      | none => rfl
      | some e => simp [hs, ht] at hplace
    | some d =>
      cases ht : t.entities[place]? with
      | none => simp [hs, ht] at hplace
      | some e =>
        rw [hs, ht] at hplace
        have hoe : d.outline = e.outline := Option.some.inj hplace
        refine congrArg some (Entity.eq_of_outline place hoe ?_)
        intro slot hslot
        have hn := hnumber slot
        simpa [Sketch.number?, Slot.readIn?, hslot, hs, ht] using hn
  obtain ⟨_, _, _, _, _, _, _⟩ := s
  obtain ⟨_, _, _, _, _, _, _⟩ := t
  simp_all [Sketch.outline]

/-! ### Writing -/

/-- A change of one entity keeps what it keeps of every entity. -/
theorem map_modify_of_keeps {β : Type} {f : Entity α → Entity α} {g : Entity α → β}
    (hf : ∀ e, g (f e) = g e) (entities : List (Entity α)) (place : Nat) :
    (entities.modify place f).map g = entities.map g := by
  apply List.ext_getElem?
  intro other
  rw [List.getElem?_map, List.getElem?_map, List.getElem?_modify]
  cases entities[other]? with
  | none => rfl
  | some e => by_cases hplace : place = other <;> simp [hplace, hf]

/-- The value that is written to a slot last, if there is one. -/
def lastWrite? (slot : Slot) : List (Slot × α) → Option α
  | [] => none
  | (written, v) :: rest =>
    match lastWrite? slot rest with
    | some later => some later
    | none => if written = slot then some v else none

theorem lastWrite?_eq_none_iff (slot : Slot) (writes : List (Slot × α)) :
    lastWrite? slot writes = none ↔ slot ∉ writes.map Prod.fst := by
  induction writes with
  | nil => simp [lastWrite?]
  | cons w rest ih =>
    obtain ⟨written, v⟩ := w
    simp only [lastWrite?, List.map_cons, List.mem_cons, not_or]
    cases hrest : lastWrite? slot rest with
    | some later =>
      have hin : slot ∈ rest.map Prod.fst := by
        by_contra hout
        rw [ih.mpr hout] at hrest
        cases hrest
      simp only [reduceCtorEq, false_iff, not_and, not_not]
      exact fun _ => hin
    | none =>
      have hout := ih.mp hrest
      simp [hout, eq_comm]

theorem lastWrite?_mem {slot : Slot} {v : α} {writes : List (Slot × α)}
    (h : lastWrite? slot writes = some v) : (slot, v) ∈ writes := by
  induction writes with
  | nil => simp [lastWrite?] at h
  | cons w rest ih =>
    obtain ⟨written, v'⟩ := w
    simp only [lastWrite?] at h
    split at h
    next later hlater =>
      cases h
      exact List.mem_cons_of_mem _ (ih hlater)
    next =>
      split at h
      next heq =>
        cases h
        rw [heq]
        exact List.mem_cons_self ..
      next => cases h

theorem lastWrite?_of_nodup {slot : Slot} {v : α} {writes : List (Slot × α)}
    (hnodup : (writes.map Prod.fst).Nodup) (h : (slot, v) ∈ writes) :
    lastWrite? slot writes = some v := by
  cases hlast : lastWrite? slot writes with
  | none =>
    have hout := (lastWrite?_eq_none_iff slot writes).mp hlast
    exact absurd (List.mem_map_of_mem h) hout
  | some v' =>
    have hmem := lastWrite?_mem hlast
    have heq := List.inj_on_of_nodup_map hnodup hmem h rfl
    rw [(Prod.mk.inj heq).2]

theorem readIn?_foldl_write (slot : Slot) (writes : List (Slot × α)) (entities : List (Entity α)) :
    slot.readIn? (writes.foldl
      (fun entities (written, v) => entities.modify written.place (written.write v)) entities) =
      (slot.readIn? entities).map fun old => (lastWrite? slot writes).getD old := by
  induction writes generalizing entities with
  | nil => simp [lastWrite?]
  | cons w rest ih =>
    obtain ⟨written, v⟩ := w
    rw [List.foldl_cons, ih]
    simp only [lastWrite?]
    by_cases heq : written = slot
    · subst heq
      rw [Slot.readIn?_modify_self, Option.map_map]
      cases lastWrite? written rest <;> simp [Function.comp_def]
    · rw [Slot.readIn?_modify_of_ne (Ne.symm heq)]
      cases lastWrite? slot rest <;> simp [heq]

theorem outline_foldl_write (writes : List (Slot × α)) (entities : List (Entity α)) :
    (writes.foldl (fun entities (written, v) => entities.modify written.place (written.write v))
      entities).map Entity.outline = entities.map Entity.outline := by
  induction writes generalizing entities with
  | nil => rfl
  | cons w rest ih =>
    obtain ⟨written, v⟩ := w
    rw [List.foldl_cons, ih, map_modify_of_keeps (written.write_outline v)]

namespace Sketch

variable (s : Sketch α) (slots : List Slot) (values : List α)

theorem outline_withValuesAt : (s.withValuesAt slots values).outline = s.outline := by
  simp only [outline, withValuesAt, outline_foldl_write]

theorem number?_withValuesAt (slot : Slot) :
    (s.withValuesAt slots values).number? slot =
      (s.number? slot).map fun old => (lastWrite? slot (slots.zip values)).getD old :=
  readIn?_foldl_write slot (slots.zip values) s.entities

theorem withValuesAt_nil : s.withValuesAt slots [] = s := by
  simp only [withValuesAt, List.zip_nil_right, List.foldl_nil]

variable {slots}

theorem number?_withValuesAt_of_not_mem {slot : Slot} (h : slot ∉ slots) :
    (s.withValuesAt slots values).number? slot = s.number? slot := by
  have hnone : lastWrite? slot (slots.zip values) = none := by
    rw [lastWrite?_eq_none_iff]
    intro hmem
    obtain ⟨⟨_, v⟩, hzip, rfl⟩ := List.mem_map.mp hmem
    exact h (List.of_mem_zip hzip).1
  rw [number?_withValuesAt, hnone]
  simp

/-- Writing a value to each of some slots forgets what was written to them before. -/
theorem withValuesAt_withValuesAt (old : List α) {new : List α} (h : new.length = slots.length) :
    (s.withValuesAt slots old).withValuesAt slots new = s.withValuesAt slots new := by
  apply eq_of_outline
  · rw [outline_withValuesAt, outline_withValuesAt, outline_withValuesAt]
  · intro slot
    by_cases hslot : slot ∈ slots
    · have hwritten : lastWrite? slot (slots.zip new) ≠ none := by
        rw [Ne, lastWrite?_eq_none_iff, List.map_fst_zip (Nat.le_of_eq h.symm)]
        exact not_not_intro hslot
      obtain ⟨v, hv⟩ := Option.ne_none_iff_exists'.mp hwritten
      rw [number?_withValuesAt, number?_withValuesAt, number?_withValuesAt, hv]
      simp [Function.comp_def]
    · rw [number?_withValuesAt_of_not_mem _ _ hslot, number?_withValuesAt_of_not_mem _ _ hslot,
        number?_withValuesAt_of_not_mem _ _ hslot]

/-- Each of distinct slots that fit holds the value that was written for it. -/
theorem number?_withValuesAt_of_mem (hnodup : slots.Nodup) {values : List α}
    (hlength : values.length = slots.length) {slot : Slot} {v : α}
    (hfit : (s.number? slot).isSome = true) (h : (slot, v) ∈ slots.zip values) :
    (s.withValuesAt slots values).number? slot = some v := by
  have hkeys : ((slots.zip values).map Prod.fst).Nodup := by
    rw [List.map_fst_zip (Nat.le_of_eq hlength.symm)]
    exact hnodup
  rw [number?_withValuesAt, lastWrite?_of_nodup hkeys h]
  obtain ⟨old, hold⟩ := Option.isSome_iff_exists.mp hfit
  simp [hold]

end Sketch

end PlaneSketch
