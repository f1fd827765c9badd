import PlaneSketch.Proofs.Agreement
import PlaneSketch.Proofs.Alike
import PlaneSketch.Proofs.Reachable

/-!
# Numbers that are left out

Whatever an active constraint names is live (`VariableMap`), and so is what that is built on, so all
that a constraint reads is held in place or a variable. The numbers that are left out are those of
construction geometry at which no constraint looks: no solve depends on them, and none changes them.
-/

namespace PlaneSketch

variable {α σ : Type}

/-- The radius of an entity that is a curve of the kind asked for. -/
def CurveId.radiusOf? : CurveId → Entity α → Option α
  | .circle _, .circle c => some c.radius
  | .arc _, .arc a => some a.radius
  | _, _ => none

def Entity.isPointWith (holds : PointId → Bool) : Entity α → Bool
  | .point p => holds p.id
  | _ => false

namespace Sketch

variable {s t : Sketch α}

/-! ### What constraints look at -/

theorem isLive_of_mem_references {k : Constraint α} (hk : k ∈ s.active) {r : EntityRef}
    (hr : r ∈ k.requirement.references) {e : Entity α} (he : e.raw = r.raw) :
    s.isLive e = true := by
  have hconstrained : s.isConstrained e.raw = true := by
    refine List.any_eq_true.mpr ⟨k, hk, List.any_eq_true.mpr ⟨r, hr, ?_⟩⟩
    exact decide_eq_true he.symm
  simp only [isLive, hconstrained, Bool.or_true]

theorem exists_of_mem_touchedPoints {r : Requirement α} {id : PointId}
    (h : id ∈ s.touchedPoints r) : .point id ∈ r.references ∨
      ∃ e ∈ r.references, ∃ d, s.entity? e.raw = some d ∧ id ∈ d.basePoints := by
  rcases (mem_foldl_distinct ..).mp h with hnone | hmore
  · cases hnone
  · obtain ⟨e, he, hbase⟩ := List.mem_flatMap.mp hmore
    split at hbase
    next => exact Or.inl (List.mem_singleton.mp hbase ▸ he)
    next =>
      cases hd : s.entity? e.raw with
      | none =>
        rw [hd] at hbase
        cases hbase
      | some d =>
        rw [hd] at hbase
        exact Or.inr ⟨e, he, d, hd, hbase⟩

theorem WellFormed.isFree_of_mem_touchedPoints (hs : s.WellFormed) {k : Constraint α}
    (hk : k ∈ s.active) {id : PointId} (hid : id ∈ s.touchedPoints k.requirement) {p : Point α}
    (hp : s.point? id = some p) : s.pins.holds id = true ∨ s.isFree (.point p) = true := by
  obtain ⟨-, rfl⟩ := hs.point?_eq_some_iff.mp hp
  have hwanted : (s.isLive (.point p) || s.carriesCurve p.id) = true := by
    rw [Bool.or_eq_true]
    rcases exists_of_mem_touchedPoints hid with hnamed | ⟨e, he, d, hd, hbase⟩
    · exact Or.inl (isLive_of_mem_references hk hnamed rfl)
    · obtain ⟨hd, hraw⟩ := hs.entity?_eq_some_iff.mp hd
      refine Or.inr (List.any_eq_true.mpr ⟨d, hd, ?_⟩)
      rw [isLive_of_mem_references hk he hraw, Bool.true_and, decide_eq_true hbase]
  cases hheld : s.pins.holds p.id with
  | true => exact Or.inl rfl
  | false =>
    right
    simp only [isFree, hheld, Bool.not_false, Bool.true_and, hwanted]

/-! ### Drawings that agree on the variables -/

/-- Two drawings of one outline that agree on the variables and on where the held points are. -/
structure DrawnAlike (s t : Sketch α) : Prop where
  outline : s.outline = t.outline
  free : ∀ slot ∈ s.slots, s.number? slot = t.number? slot
  held : ∀ id, s.pins.holds id = true → s.position? id = t.position? id

/-- The numbers of a free entity are variables, so it is the same in both drawings. -/
theorem DrawnAlike.entity?_eq (h : s.DrawnAlike t) (hs : s.WellFormed) {raw : Nat} {e : Entity α}
    (he : s.entity? raw = some e) (hfree : s.isFree e = true) : t.entity? raw = some e := by
  rw [← entity?_eq_of_outline h.outline ?_, he]
  intro slot hplace
  have hentity : s.entities[slot.place]? = some e := by
    rwa [entity?, hplace, Option.bind_some] at he
  have hnumber : s.number? slot = slot.read? e := by
    rw [number?, Slot.readIn?, hentity, Option.bind_some]
  cases hfit : slot.read? e with
  | some v => exact h.free slot (hs.mem_slots_iff.mpr ⟨e, hentity, hfit ▸ rfl, hfree⟩)
  | none =>
    have hboth := isSome_number?_of_outline h.outline slot
    rw [hnumber, hfit] at hboth ⊢
    exact (Option.not_isSome_iff_eq_none.mp (Bool.eq_false_iff.mp hboth.symm)).symm

theorem DrawnAlike.position?_eq (h : s.DrawnAlike t) (hs : s.WellFormed) {k : Constraint α}
    (hk : k ∈ s.active) {id : PointId} (hid : id ∈ s.touchedPoints k.requirement) :
    s.position? id = t.position? id := by
  cases hp : s.point? id with
  | none =>
    have hboth := isSome_position?_of_outline h.outline id
    simp only [position?, hp, Option.map_none, Option.isSome_none] at hboth ⊢
    exact (Option.not_isSome_iff_eq_none.mp (Bool.eq_false_iff.mp hboth.symm)).symm
  | some p =>
    rcases hs.isFree_of_mem_touchedPoints hk hid hp with hheld | hfree
    · exact h.held id hheld
    · have hthere := h.entity?_eq hs (s.point?_eq_some_iff_entity?.mp hp) hfree
      simp only [position?, hp, t.point?_eq_some_iff_entity?.mpr hthere]

theorem radius?_eq_bind (s : Sketch α) (c : CurveId) :
    s.radius? c = (s.entity? c.toRef.raw).bind c.radiusOf? := by
  cases c with
  | circle id =>
    simp only [radius?, circle?, CurveId.toRef, EntityRef.raw]
    rcases s.entity? id.raw with _ | _ | _ | _ | _ <;> rfl
  | arc id =>
    simp only [radius?, arc?, CurveId.toRef, EntityRef.raw]
    rcases s.entity? id.raw with _ | _ | _ | _ | _ <;> rfl

theorem DrawnAlike.radius?_eq (h : s.DrawnAlike t) (hs : s.WellFormed) {k : Constraint α}
    (hk : k ∈ s.active) {c : CurveId} (hc : c.toRef ∈ k.requirement.references) :
    s.radius? c = t.radius? c := by
  rw [radius?_eq_bind, radius?_eq_bind]
  rcases entity?_cases_of_outline h.outline c.toRef.raw with ⟨hd, he⟩ | ⟨d, e, hd, he, hde⟩
  · rw [hd, he]
  · have hlive := isLive_of_mem_references hk hc (hs.entity?_eq_some_iff.mp hd).2
    rw [hd]
    cases d with
    | point p =>
      -- a point has no radius, in either drawing
      rw [he]
      cases e <;> simp only [Entity.outline, reduceCtorEq] at hde
      cases c <;> rfl
    | line | circle | arc => rw [h.entity?_eq hs hd hlive]

theorem DrawnAlike.components_eq [Scalar α] (h : s.DrawnAlike t) (hs : s.WellFormed)
    {k : Constraint α} (hk : k ∈ s.active) :
    s.components k.requirement = t.components k.requirement :=
  components_of_reads h.outline (fun _ hid => h.position?_eq hs hk hid)
    fun _ hc => h.radius?_eq hs hk hc

/-! ### What an outline decides about a solve -/

theorem contains_of_outline (h : s.outline = t.outline) : s.contains = t.contains := by
  funext r
  unfold contains
  rcases entity?_cases_of_outline h r.raw with ⟨hs, ht⟩ | ⟨d, e, hs, ht, hde⟩
  · rw [hs, ht]
  · rw [hs, ht, Option.any_some, Option.any_some, ← d.outline_ref, hde, e.outline_ref]

theorem isIdle_of_outline (h : s.outline = t.outline) : s.isIdle = t.isIdle := by
  have hconstraints : s.constraints = t.constraints := congrArg Outline.constraints h
  unfold isIdle
  rw [slots_of_outline h, hconstraints]

theorem isHeld_of_outline (h : s.outline = t.outline) : s.isHeld = t.isHeld := by
  funext slot
  have hlook (u : Sketch α) : u.isHeld slot =
      (u.outline.entities[slot.place]?).any (Entity.isPointWith u.pins.holds) := by
    show u.isHeld slot = ((u.entities.map Entity.outline)[slot.place]?).any _
    rw [isHeld, List.getElem?_map]
    rcases u.entities[slot.place]? with _ | _ | _ | _ | _ <;> rfl
  have hholds : s.pins.holds = t.pins.holds := by
    funext id
    exact Pins.holds_of_keys (pins_keys_of_outline h) id
  rw [hlook, hlook, h, hholds]

theorem obstacle?_of_outline [Scalar α] (h : s.outline = t.outline) :
    s.obstacle? = t.obstacle? := by
  have hconstraints : s.constraints = t.constraints := congrArg Outline.constraints h
  have hinvalid : s.invalidActive = t.invalidActive := by
    unfold invalidActive invalidConstraints constraint? Constraint.defect?
    rw [contains_of_outline h, hconstraints]
  unfold obstacle?
  rw [hinvalid, freedom_of_outline h]

/-! ### Purging -/

theorem outline_purge (h : s.outline = t.outline) : s.purge.2.outline = t.purge.2.outline := by
  have hpurge (u : Sketch α) : u.purge.2.outline =
      { u.outline with
        constraints := u.outline.constraints.filter fun k =>
          !k.requirement.references.any (·.raw ∈ u.outline.removed) } := by
    rw [purge_eq_filter]
    rfl
  rw [hpurge, hpurge, h]

/-- A dangling constraint holds no point. -/
theorem WellFormed.pins_purge (hs : s.WellFormed) : s.purge.2.pins = s.pins := by
  have hheld : s.purge.2.constraints.filterMap s.heldBy? = s.constraints.filterMap s.heldBy? := by
    rw [purge_eq_filter, List.filterMap_filter]
    refine List.filterMap_congr ?_
    intro k _
    cases hdangling : s.isDangling k with
    | false => rfl
    | true =>
      show none = s.heldBy? k
      unfold heldBy?
      split
      next id position hfixed =>
        have hremoved : id.raw ∈ s.removed := by
          rw [isDangling, hfixed, Requirement.references, List.any_cons, List.any_nil,
            Bool.or_false] at hdangling
          exact of_decide_eq_true hdangling
        have hgone : s.point? id = none := by
          have hnone := hs.entity?_eq_none_iff.mpr (hs.removed_gone id.raw hremoved)
          unfold point?
          rw [hnone]
        rw [hgone, Option.any_none, Bool.and_false, if_neg Bool.false_ne_true]
      next => rfl
  unfold pins
  rw [← hheld]
  rfl

theorem WellFormed.isHeld_purge (hs : s.WellFormed) (slot : Slot) :
    s.purge.2.isHeld slot = s.isHeld slot := by
  unfold isHeld
  rw [hs.pins_purge]
  rfl

/-- A dangling constraint frees nothing that a solve would change. -/
theorem WellFormed.slots_purge_subset (hs : s.WellFormed) : s.purge.2.slots ⊆ s.slots := by
  have hactive : s.purge.2.active ⊆ s.active := by
    rw [purge_eq_filter]
    exact (List.filter_sublist.filter _).subset
  have hlive {e : Entity α} (he : s.purge.2.isLive e = true) : s.isLive e = true := by
    rw [isLive, Bool.or_eq_true] at he ⊢
    refine he.imp_right ?_
    intro hconstrained
    obtain ⟨k, hk, hnamed⟩ := List.any_eq_true.mp hconstrained
    exact List.any_eq_true.mpr ⟨k, hactive hk, hnamed⟩
  have hcarries {id : PointId} (hid : s.purge.2.carriesCurve id = true) :
      s.carriesCurve id = true := by
    obtain ⟨e, he, hbase⟩ := List.any_eq_true.mp hid
    rw [Bool.and_eq_true] at hbase
    refine List.any_eq_true.mpr ⟨e, he, ?_⟩
    rw [hlive hbase.1, hbase.2, Bool.and_self]
  intro slot hslot
  obtain ⟨e, he, hfit, hfree⟩ := isFree_of_mem_slots hslot
  refine hs.mem_slots_iff.mpr ⟨e, he, hfit, ?_⟩
  cases e with
  | point p =>
    simp only [isFree, hs.pins_purge, Bool.and_eq_true, Bool.or_eq_true] at hfree ⊢
    exact hfree.imp_right (Or.imp hlive hcarries)
  | line | circle | arc => exact hlive hfree

/-! ### Trials -/

theorem WellFormed.number?_finished_of_left_out (hs : s.WellFormed) (rounds : List (Round α))
    {slot : Slot} (hslot : slot ∉ s.slots) (hheld : s.isHeld slot = false) :
    (s.pinned.finished rounds).number? slot = s.number? slot := by
  rw [s.pinned.number?_finished_of_not_mem rounds (by rwa [slots_pinned]), hs.number?_pinned hheld]

section Alike

variable (hs : s.WellFormed) (h : s.outline = t.outline)
  (hfree : ∀ slot ∈ s.slots, s.number? slot = t.number? slot)

include hs h hfree

theorem WellFormed.number?_pinned_eq {slot : Slot} (hslot : slot ∈ s.slots) :
    s.pinned.number? slot = t.pinned.number? slot := by
  have hheld : s.isHeld slot = false := isHeld_eq_false_of_mem_slots hslot
  have hheld' : t.isHeld slot = false := isHeld_of_outline h ▸ hheld
  rw [hs.number?_pinned hheld, (hs.of_outline h).number?_pinned hheld', hfree slot hslot]

variable (hpins : s.pins = t.pins)

include hpins

theorem WellFormed.drawnAlike_withValuesAt (values : List α) :
    (s.pinned.withValuesAt s.pinned.slots values).DrawnAlike
      (t.pinned.withValuesAt t.pinned.slots values) := by
  have ht : t.WellFormed := hs.of_outline h
  have houtline (u : Sketch α) : (u.pinned.withValuesAt u.pinned.slots values).outline =
      u.outline := (u.pinned.outline_withValuesAt _ _).trans u.outline_pinned
  refine ⟨?_, ?_, ?_⟩
  · rw [houtline, houtline, h]
  · intro slot hslot
    rw [slots_of_outline (houtline s)] at hslot
    rw [number?_withValuesAt, number?_withValuesAt, slots_pinned, slots_pinned,
      slots_of_outline h, hs.number?_pinned_eq h hfree hslot]
  · intro id hid
    rw [Pins.holds_of_keys (pins_keys_of_outline (houtline s)), Pins.holds_iff] at hid
    obtain ⟨⟨_, position⟩, hpin, rfl⟩ := List.mem_map.mp hid
    rw [hs.position?_withValuesAt values hpin]
    rw [hpins] at hpin
    exact (ht.position?_withValuesAt values hpin).symm

theorem WellFormed.drawnAlike_finished (rounds : List (Round α)) :
    (s.pinned.finished rounds).DrawnAlike (t.pinned.finished rounds) := by
  have hdrawn := hs.drawnAlike_withValuesAt h hfree hpins
  unfold finished
  cases rounds.getLast? with
  | none => simpa only [withValuesAt_nil] using hdrawn []
  | some last => exact hdrawn last.run.x

theorem WellFormed.triedAlike [Scalar α] : s.TriedAlike t where
  freedom := freedom_of_outline h
  idle := isIdle_of_outline h
  objective c := by
    have hpinned : s.pinned.outline = t.pinned.outline := by
      rw [outline_pinned, outline_pinned, h]
    have hslots : s.pinned.slots = t.pinned.slots := slots_of_outline hpinned
    refine ⟨hslots, active_of_outline hpinned, rfl, ?_, ?_⟩
    · show s.pinned.valuesAt s.pinned.slots = t.pinned.valuesAt t.pinned.slots
      rw [← hslots]
      refine List.map_congr_left ?_
      intro slot hslot
      rw [slots_pinned] at hslot
      exact congrArg (·.getD 0.0) (hs.number?_pinned_eq h hfree hslot)
    · intro x k hk
      have hdrawn := hs.drawnAlike_withValuesAt h hfree hpins x
      have hplaced : (s.pinned.withValuesAt s.pinned.slots x).outline = s.pinned.outline :=
        s.pinned.outline_withValuesAt _ _
      refine hdrawn.components_eq (hs.of_outline ?_) ?_
      · rw [hplaced, outline_pinned]
      · rw [active_of_outline hplaced]
        exact hk

end Alike

/-! ### Solves -/

/-- What an active constraint reads is held or a variable. So two drawings of one outline whose
numbers are finite, held in the same places and alike in the variables, are solved alike, whatever
else is drawn in them; and a success leaves them alike, with the held points in place and each
number that is left out as it was. -/
theorem solve_left_out [Scalar α] (hs : s.WellFormed) (h : s.outline = t.outline)
    (hnumbers : s.checkNumbers = .ok ()) (hnumbers' : t.checkNumbers = .ok ())
    (hpins : s.pins = t.pins) (hfree : ∀ slot ∈ s.slots, s.number? slot = t.number? slot)
    (m : Minimizer α σ) (c : SolveConfig α) (state : σ) :
    let solved := s.solveFrom m c state
    let other := t.solveFrom m c state
    (∀ u, s.DrawnAlike u → ∀ k ∈ s.active,
      s.components k.requirement = u.components k.requirement) ∧
    other.outcome = solved.outcome ∧ other.rounds = solved.rounds ∧
    ∀ r, solved.outcome = .ok r → r.isSuccess = true →
      (∀ slot ∈ s.slots, other.sketch.number? slot = solved.sketch.number? slot) ∧
      (∀ id position, (id, position) ∈ s.pins →
        solved.sketch.position? id = some position ∧ other.sketch.position? id = some position) ∧
      ∀ slot, slot ∉ s.slots → s.isHeld slot = false →
        solved.sketch.number? slot = s.number? slot ∧
          other.sketch.number? slot = t.number? slot := by
  intro solved other
  have ht : t.WellFormed := hs.of_outline h
  have hspurged : s.purge.2.WellFormed := s.evolves_purge.wellFormed hs
  have htpurged : t.purge.2.WellFormed := t.evolves_purge.wellFormed ht
  have hpurge : s.purge.2.outline = t.purge.2.outline := outline_purge h
  have hpins' : s.purge.2.pins = t.purge.2.pins := by rw [hs.pins_purge, ht.pins_purge, hpins]
  have hfree' : ∀ slot ∈ s.purge.2.slots, s.purge.2.number? slot = t.purge.2.number? slot :=
    fun slot hslot => hfree slot (hs.slots_purge_subset hslot)
  obtain ⟨houtcome, hrounds⟩ : solved.outcome = other.outcome ∧ solved.rounds = other.rounds :=
    (hspurged.triedAlike hpurge hfree' hpins').solveFrom_eq (hnumbers.trans hnumbers'.symm)
      (obstacle?_of_outline hpurge) m c state
  refine ⟨fun u hu k hk => hu.components_eq hs hk, houtcome.symm, hrounds.symm, ?_⟩
  intro r hr hsuccess
  have hsolved : solved.sketch = s.purge.2.pinned.finished solved.rounds :=
    (solve_success hr hsuccess).sketch
  have hother : other.sketch = t.purge.2.pinned.finished solved.rounds := by
    rw [hrounds]
    exact (solve_success (houtcome ▸ hr) hsuccess).sketch
  rw [hsolved, hother]
  have hkept (slot : Slot) (hslot : slot ∉ s.purge.2.slots) (hheld : s.isHeld slot = false) :
      (s.purge.2.pinned.finished solved.rounds).number? slot = s.number? slot ∧
        (t.purge.2.pinned.finished solved.rounds).number? slot = t.number? slot := by
    have hslot' : slot ∉ t.purge.2.slots := slots_of_outline hpurge ▸ hslot
    refine ⟨hspurged.number?_finished_of_left_out _ hslot ?_,
      htpurged.number?_finished_of_left_out _ hslot' ?_⟩
    · rw [hs.isHeld_purge, hheld]
    · rw [ht.isHeld_purge, ← isHeld_of_outline h, hheld]
  refine ⟨?_, ?_, ?_⟩
  · intro slot hslot
    by_cases hvariable : slot ∈ s.purge.2.slots
    · have hdrawn := hspurged.drawnAlike_finished hpurge hfree' hpins' solved.rounds
      refine (hdrawn.free slot ?_).symm
      rwa [slots_of_outline (outline_finished ..), slots_pinned]
    · obtain ⟨hkept, hkept'⟩ := hkept slot hvariable (isHeld_eq_false_of_mem_slots hslot)
      rw [hkept, hkept', hfree slot hslot]
  · intro id position hin
    refine ⟨hspurged.position?_finished _ ?_, htpurged.position?_finished _ ?_⟩
    · rwa [hs.pins_purge]
    · rwa [ht.pins_purge, ← hpins]
  · intro slot hslot hheld
    exact hkept slot (fun hvariable => hslot (hs.slots_purge_subset hvariable)) hheld

/-- The levelled drawing with a mark that nothing depends on. -/
def marked : Sketch Float :=
  Operation.run [.addPoint ⟨2.0, 2.0⟩, .editPoint ⟨4⟩ fun p => { p with construction := true }]
    levelled

/-- The same with the mark and the held end of the line drawn elsewhere. -/
def remarked : Sketch Float :=
  marked.withValuesAt [.pointX 1, .pointY 1, .pointX 4] [4.0, 3.0, 7.0]

theorem solve_left_out_remarked :
    let solved := marked.solveFrom (.answering [7.0]) .standard ()
    let other := remarked.solveFrom (.answering [7.0]) .standard ()
    other.outcome = solved.outcome ∧ solved.isSuccess = true ∧
      other.sketch.position? ⟨1⟩ = some ⟨1.0, 0.0⟩ ∧
      solved.sketch.number? (.pointX 4) = some 2.0 ∧
      other.sketch.number? (.pointX 4) = some 7.0 := by
  intro solved other
  have hmarked : marked.WellFormed :=
    (Operation.evolves_run _ levelled).wellFormed (WellFormed.addConstraint wellFormed_slanted _)
  have houtline : marked.outline = remarked.outline := (marked.outline_withValuesAt _ _).symm
  have hsuccess : solved.isSuccess = true := by decide +kernel
  have hpin : (⟨1⟩, ⟨1.0, 0.0⟩) ∈ marked.pins := by decide +kernel
  have hmark : .pointX 4 ∉ marked.slots ∧ marked.isHeld (.pointX 4) = false := by decide +kernel
  have hnumber : marked.number? (.pointX 4) = some 2.0 ∧
      remarked.number? (.pointX 4) = some 7.0 := by
    decide +kernel
  obtain ⟨r, hr, hrsuccess⟩ := Solved.exists_of_isSuccess hsuccess
  obtain ⟨-, houtcome, -, hsolved⟩ := solve_left_out hmarked houtline (by decide +kernel)
    (by decide +kernel) (by decide +kernel) (by decide +kernel) (.answering [7.0]) .standard ()
  obtain ⟨-, hheld, hkept⟩ := hsolved r hr hrsuccess
  obtain ⟨hkept, hkept'⟩ := hkept _ hmark.1 hmark.2
  exact ⟨houtcome, hsuccess, (hheld _ _ hpin).2, hkept.trans hnumber.1, hkept'.trans hnumber.2⟩

end Sketch

end PlaneSketch
