import PlaneSketch.Proofs.Evolution
import PlaneSketch.Proofs.Success

/-!
# What a solve changes

A fault leaves the sketch alone (`solve_inner`), and a solve without success only drops dangling
constraints. A success puts the held points in place and may write the variables; the outline and
every other number stay.
-/

namespace PlaneSketch

variable {α σ : Type}

namespace Sketch

/-! ### Positions and numbers -/

/-- Whether the slot is a coordinate of a held point. -/
def isHeld (s : Sketch α) (slot : Slot) : Bool :=
  match s.entities[slot.place]? with
  | some (.point p) => s.pins.holds p.id
  | _ => false

theorem isHeld_of_point {s : Sketch α} {slot : Slot} {p : Point α}
    (hp : s.entities[slot.place]? = some (.point p)) : s.isHeld slot = s.pins.holds p.id := by
  unfold isHeld
  rw [hp]

theorem isHeld_eq_false_of_mem_slots {s : Sketch α} {slot : Slot} (h : slot ∈ s.slots) :
    s.isHeld slot = false := by
  obtain ⟨e, he, -, hfree⟩ := mem_slots h
  cases e with
  | point p => rw [isHeld_of_point he, hfree p rfl]
  | line | circle | arc => rw [isHeld, he]

theorem number?_finished_of_not_mem (s : Sketch α) (rounds : List (Round α)) {slot : Slot}
    (h : slot ∉ s.slots) : (s.finished rounds).number? slot = s.number? slot := by
  unfold finished
  split
  · rfl
  · exact s.number?_withValuesAt_of_not_mem _ h

theorem WellFormed.number?_pinned {s : Sketch α} (h : s.WellFormed) {slot : Slot}
    (hfree : s.isHeld slot = false) : s.pinned.number? slot = s.number? slot := by
  refine h.number?_applyPins ?_
  intro p hp
  rw [← isHeld_of_point hp]
  exact hfree

theorem WellFormed.position?_pinned {s : Sketch α} (h : s.WellFormed) {id : PointId}
    {position : Vec α} (hin : (id, position) ∈ s.pins) :
    s.pinned.position? id = some position := by
  refine h.position?_applyPins h.pins_nodup ?_ hin
  intro pin hpin
  exact Option.isSome_iff_exists.mpr (h.exists_point_of_mem_pins hpin)

/-- Whatever is written to the variables, a held point stays in place. -/
theorem WellFormed.position?_withValuesAt {s : Sketch α} (h : s.WellFormed) (values : List α)
    {id : PointId} {position : Vec α} (hin : (id, position) ∈ s.pins) :
    (s.pinned.withValuesAt s.pinned.slots values).position? id = some position := by
  rw [← h.position?_pinned hin]
  have houtline : (s.pinned.withValuesAt s.pinned.slots values).outline = s.outline :=
    (s.pinned.outline_withValuesAt _ _).trans s.outline_pinned
  have hindex : (s.pinned.withValuesAt s.pinned.slots values).index = s.index :=
    congrArg Outline.index houtline
  -- the coordinates of a held point are no variables
  have hheld : ∀ slot : Slot, s.index[id.raw]? = some slot.place → slot ∉ s.pinned.slots := by
    intro slot hplace hslot
    rw [slots_pinned] at hslot
    have hfree := isHeld_eq_false_of_mem_slots hslot
    obtain ⟨p, hp⟩ := h.exists_point_of_mem_pins hin
    have hid := (h.point?_eq_some_iff.mp hp).2
    rw [point?_eq_some_iff_entity?, entity?, hplace] at hp
    rw [isHeld_of_point hp, hid] at hfree
    have hholds := (Pins.holds_iff s.pins id).mpr (List.mem_map_of_mem (f := Prod.fst) hin)
    rw [hfree] at hholds
    cases hholds
  unfold position? point?
  rw [entity?_eq_of_outline (s.pinned.outline_withValuesAt _ _) ?_]
  intro slot hplace
  rw [hindex] at hplace
  exact s.pinned.number?_withValuesAt_of_not_mem values (hheld slot hplace)

/-- Rounds leave a held point in place. -/
theorem WellFormed.position?_finished {s : Sketch α} (h : s.WellFormed) (rounds : List (Round α))
    {id : PointId} {position : Vec α} (hin : (id, position) ∈ s.pins) :
    (s.pinned.finished rounds).position? id = some position := by
  unfold finished
  split
  · exact h.position?_pinned hin
  · exact h.position?_withValuesAt _ hin

end Sketch

/-! ### The frame of a solve -/

variable [Scalar α]

theorem Sketch.solve_fault_sketch {s : Sketch α} {m : Minimizer α σ} {c : SolveConfig α}
    {state : σ} {fault : Fault α} (h : (s.solveFrom m c state).outcome = .error fault) :
    (s.solveFrom m c state).sketch = s := by
  rcases s.solve_cases m c state with ⟨_, -, hsolve⟩ | ⟨-, _, -, hsolve⟩ | ⟨-, -, _, -, hsolve⟩
  · rw [hsolve]
  · rw [hsolve] at h
    cases h
  · rw [hsolve] at h
    cases h

theorem Sketch.solve_failure_sketch {s : Sketch α} {m : Minimizer α σ} {c : SolveConfig α}
    {state : σ} {r : SolveResult α} (h : (s.solveFrom m c state).outcome = .ok r)
    (hr : r.isSuccess = false) : (s.solveFrom m c state).sketch = s.purge.2 := by
  rcases s.solve_cases m c state with ⟨_, -, hsolve⟩ | ⟨-, _, -, hsolve⟩ |
    ⟨-, hobstacle, t, ht, hsolve⟩
  · rw [hsolve] at h
    cases h
  · rw [hsolve]
  · rw [hsolve] at h ⊢
    cases h
    have hrejected : t.accepted = false := by
      rw [← hr, ← ht]
      exact (s.purge.2.trial_isSuccess m c state
        (not_overConstrained_of_obstacle? hobstacle)).symm
    rw [hrejected]
    rfl

/-- What a solve may change, whatever the minimizer does. A fault leaves the sketch as it was, and
without success only dangling constraints are gone. A success changes nothing but numbers; each held
point is where it is held, and all other numbers that are no variables stay, as do the variables
when the minimizer was never called. -/
theorem Sketch.solve_frame (s : Sketch α) (m : Minimizer α σ) (c : SolveConfig α) (state : σ) :
    let solved := s.solveFrom m c state
    let purged := s.purge.2
    (∀ fault, solved.outcome = .error fault → solved.sketch = s) ∧
    (∀ r, solved.outcome = .ok r → r.isSuccess = false → solved.sketch = purged) ∧
    (∀ r, solved.outcome = .ok r → r.isSuccess = true →
      solved.sketch.outline = purged.outline ∧
      (s.WellFormed →
        (∀ id position, (id, position) ∈ purged.pins →
          solved.sketch.position? id = some position) ∧
        (∀ slot, purged.isHeld slot = false → slot ∉ purged.slots ∨ solved.rounds = [] →
          solved.sketch.number? slot = purged.number? slot))) := by
  intro solved purged
  refine ⟨fun _ h => solve_fault_sketch h, fun _ h hr => solve_failure_sketch h hr, ?_⟩
  intro r h hr
  have hsketch : solved.sketch = purged.pinned.finished solved.rounds := (solve_success h hr).sketch
  rw [hsketch]
  refine ⟨(purged.pinned.outline_finished _).trans purged.outline_pinned, ?_⟩
  intro hs
  have hpurged : purged.WellFormed := s.evolves_purge.wellFormed hs
  refine ⟨fun id position hin => hpurged.position?_finished _ hin, ?_⟩
  intro slot hfree hslot
  rw [← hpurged.number?_pinned hfree]
  rcases hslot with hslot | hrounds
  · refine purged.pinned.number?_finished_of_not_mem _ ?_
    rwa [slots_pinned]
  · rw [hrounds]
    rfl

theorem Sketch.wellFormed_slanted : slanted.WellFormed :=
  ((evolves_addPointWith _ _ _).trans <| (evolves_addPointWith _ _ _).trans <|
    (evolves_addLine _ _ _).trans <| (evolves_addCircle _ _ _).trans <|
    evolves_addConstraint _ _).wellFormed (wellFormed_empty _)

/-- The slanted drawing with the end of its line held on the level of the other one. -/
def Sketch.levelled : Sketch Float := (slanted.addConstraint (.fixed ⟨1⟩ ⟨1.0, 0.0⟩)).2

theorem Sketch.solve_frame_levelled :
    (levelled.solveFrom (.answering [7.0]) .standard ()).isSuccess = true ∧
      (levelled.solveFrom (.answering [7.0]) .standard ()).sketch.position? ⟨1⟩ =
        some ⟨1.0, 0.0⟩ := by
  have hsuccess : (levelled.solveFrom (.answering [7.0]) .standard ()).isSuccess = true := by
    decide +kernel
  obtain ⟨r, h, hr⟩ := Solved.exists_of_isSuccess hsuccess
  have hpin : (⟨1⟩, ⟨1.0, 0.0⟩) ∈ levelled.purge.2.pins :=
    List.mem_cons_of_mem _ (List.mem_cons_self ..)
  have hframe := (solve_frame levelled (.answering [7.0]) .standard ()).2.2 r h hr
  exact ⟨hsuccess, (hframe.2 (WellFormed.addConstraint wellFormed_slanted _)).1 _ _ hpin⟩

end PlaneSketch
