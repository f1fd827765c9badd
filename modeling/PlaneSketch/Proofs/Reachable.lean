import PlaneSketch.Diagnosis.Suggestion
import PlaneSketch.Proofs.Evolution
import PlaneSketch.Proofs.Trials

/-!
# Reachable sketches

What can be done to a sketch, one operation after another, with any arguments and any minimizer. No
operation breaks the arena, and what was removed once stays removed, so whatever happens to a sketch
that started empty, its ids are in order and no removed one comes back.
-/

namespace PlaneSketch

variable {α : Type} [Scalar α]

/-- A change of a sketch. The edits of a point, a line or a constraint may change all of it but its
id. -/
inductive Operation (α : Type) : Type 1 where
  | addPoint (position : Vec α)
  | addFixedPoint (position : Vec α)
  | addLine (start stop : PointId)
  | addCircle (center : PointId) (radius : α)
  | addArc (center : PointId) (radius startAngle stopAngle : α)
  | addConstraint (r : Requirement α)
  | fixPoint (id : PointId)
  | applySuggestion (suggestion : Suggestion α)
  | setPosition (id : PointId) (position : Vec α)
  | setEnabled (id : ConstraintId) (enabled : Bool)
  | setDriving (id : ConstraintId) (driving : Bool)
  | setValue (id : ConstraintId) (value : α)
  | removePoint (id : PointId)
  | removeLine (id : LineId)
  | removeCircle (id : CircleId)
  | removeArc (id : ArcId)
  | removeConstraint (id : ConstraintId)
  | purge
  | solve {σ : Type} (m : Minimizer α σ) (c : SolveConfig α) (state : σ)
  | editPoint (id : PointId) (f : Point α → Point α)
  | editLine (id : LineId) (f : Line → Line)
  | editConstraint (id : ConstraintId) (f : Constraint α → Constraint α)

namespace Operation

/-- What an operation makes of a sketch. A refused edit or removal leaves it as it was. -/
def apply : Operation α → Sketch α → Sketch α
  | .addPoint position, s => (s.addPoint position).2
  | .addFixedPoint position, s => (s.addFixedPoint position).2
  | .addLine start stop, s => (s.addLine start stop).2
  | .addCircle center radius, s => (s.addCircle center radius).2
  | .addArc center radius startAngle stopAngle, s =>
    (s.addArc center radius startAngle stopAngle).2
  | .addConstraint r, s => (s.addConstraint r).2
  | .fixPoint id, s => (s.fixPoint id).2
  | .applySuggestion suggestion, s => (s.applySuggestion suggestion).2
  | .setPosition id position, s => (s.setPosition id position).toOption.getD s
  | .setEnabled id enabled, s => (s.setEnabled id enabled).toOption.getD s
  | .setDriving id driving, s => (s.setDriving id driving).toOption.getD s
  | .setValue id value, s => (s.setValue id value).toOption.getD s
  | .removePoint id, s => ((s.removePoint id).toOption.map (·.2)).getD s
  | .removeLine id, s => (s.removeLine id).toOption.getD s
  | .removeCircle id, s => (s.removeCircle id).toOption.getD s
  | .removeArc id, s => (s.removeArc id).toOption.getD s
  | .removeConstraint id, s => ((s.removeConstraint? id).map (·.2)).getD s
  | .purge, s => s.purge.2
  | .solve m c state, s => (s.solveFrom m c state).sketch
  | .editPoint id f, s => (s.editPoint? id fun p => { f p with id := p.id }).getD s
  | .editLine id f, s => (s.editLine? id fun l => { f l with id := l.id }).getD s
  | .editConstraint id f, s => (s.editConstraint? id fun c => { f c with id := c.id }).getD s

/-- What some operations make of a sketch, one after another. -/
def run (ops : List (Operation α)) (s : Sketch α) : Sketch α :=
  ops.foldl (fun s op => op.apply s) s

end Operation

/-! ### Solves -/

/-- A solve leaves the drawing, or the drawing without dangling constraints, or that one with other
numbers. -/
theorem Sketch.outline_solveFrom {σ : Type} (s : Sketch α) (m : Minimizer α σ)
    (c : SolveConfig α) (state : σ) :
    (s.solveFrom m c state).sketch = s ∨
      (s.solveFrom m c state).sketch.outline = s.purge.2.outline := by
  rcases s.solve_cases m c state with ⟨_, -, hsolve⟩ | ⟨-, _, -, hsolve⟩ | ⟨-, -, t, ht, hsolve⟩
  · rw [hsolve]
    exact Or.inl rfl
  · rw [hsolve]
    exact Or.inr rfl
  · right
    rw [hsolve]
    cases haccepted : t.accepted with
    | false => rfl
    | true =>
      rw [← ht] at haccepted ⊢
      have hsound := s.purge.2.trial_sound m c state haccepted
      show ((s.purge.2.trial m c).run state).1.sketch.outline = s.purge.2.outline
      rw [hsound.sketch, outline_finished, outline_pinned]

theorem Sketch.evolves_solveFrom {σ : Type} (s : Sketch α) (m : Minimizer α σ)
    (c : SolveConfig α) (state : σ) : s.Evolves (s.solveFrom m c state).sketch := by
  rcases s.outline_solveFrom m c state with hsame | houtline
  · rw [hsame]
    exact .refl s
  · exact s.evolves_purge.trans (.of_outline houtline)

/-! ### Steps and runs -/

omit [Scalar α] in
theorem Sketch.Evolves.getD {s : Sketch α} {t? : Option (Sketch α)}
    (h : ∀ t, t? = some t → s.Evolves t) : s.Evolves (t?.getD s) := by
  cases t? with
  | none => exact .refl s
  | some t => exact h t rfl

theorem ok_of_toOption {ε β : Type} {x : Except ε β} {b : β} (h : x.toOption = some b) :
    x = .ok b := by
  cases x with
  | error => cases h
  | ok => exact congrArg Except.ok (Option.some.inj h)

namespace Operation

open Sketch

/-- No operation breaks the arena, brings a removed id back or gives an id out twice. -/
theorem evolves_apply (op : Operation α) (s : Sketch α) : s.Evolves (op.apply s) := by
  cases op with
  | addPoint position => exact s.evolves_addPointWith position false
  | addFixedPoint position => exact s.evolves_addPointWith position true
  | addLine start stop => exact s.evolves_addLine start stop
  | addCircle center radius => exact s.evolves_addCircle center radius
  | addArc center radius startAngle stopAngle =>
    exact s.evolves_addArc center radius startAngle stopAngle
  | addConstraint r => exact s.evolves_addConstraint r
  | fixPoint id => exact s.evolves_fixPoint id
  | applySuggestion suggestion => exact s.evolves_addConstraint _
  | setPosition id position =>
    exact .getD fun t ht => .of_arena (arena_setPosition (ok_of_toOption ht))
  | setEnabled id enabled =>
    exact .getD fun t ht => .of_arena (arena_editConstraint (ok_of_toOption ht) fun _ => rfl)
  | setDriving id driving =>
    exact .getD fun t ht => .of_arena (arena_editConstraint (ok_of_toOption ht) fun _ => rfl)
  | setValue id value => exact .getD fun t ht => .of_arena (arena_setValue (ok_of_toOption ht))
  | removePoint id =>
    refine .getD fun t ht => ?_
    obtain ⟨⟨p, _⟩, hremoved, rfl⟩ := Option.map_eq_some_iff.mp ht
    exact evolves_removePoint (ok_of_toOption hremoved)
  | removeLine id => exact .getD fun t ht => evolves_removeEntity (ok_of_toOption ht)
  | removeCircle id => exact .getD fun t ht => evolves_removeEntity (ok_of_toOption ht)
  | removeArc id => exact .getD fun t ht => evolves_removeEntity (ok_of_toOption ht)
  | removeConstraint id =>
    refine .getD fun t ht => ?_
    obtain ⟨⟨c, _⟩, hremoved, rfl⟩ := Option.map_eq_some_iff.mp ht
    exact evolves_removeConstraint? hremoved
  | purge => exact s.evolves_purge
  | solve m c state => exact s.evolves_solveFrom m c state
  | editPoint id f => exact .getD fun t ht => .of_arena (arena_editPoint? ht fun _ => rfl)
  | editLine id f => exact .getD fun t ht => .of_arena (arena_editLine? ht fun _ => rfl)
  | editConstraint id f =>
    exact .getD fun t ht => .of_arena (arena_editConstraint? ht fun _ => rfl)

theorem evolves_run (ops : List (Operation α)) (s : Sketch α) : s.Evolves (run ops s) := by
  unfold run
  induction ops generalizing s with
  | nil => exact .refl s
  | cons op rest ih => exact (op.evolves_apply s).trans (ih (op.apply s))

theorem wellFormed_run_empty (ops : List (Operation α)) (name : String) :
    (run ops (empty name)).WellFormed :=
  (evolves_run ops (empty name)).wellFormed (wellFormed_empty name)

/-- Whatever is done to a sketch that starts empty, its arena is well formed: ids ascend below the
counters, and the index is the inverse of the list of entities, so that a look-up is a search of
the list and never points beyond it. Removed ids are not in use, and whatever is done later, they
never are again. -/
theorem arena_run_empty (ops : List (Operation α)) (name : String) :
    let s := run ops (empty name)
    s.arena.WellFormed ∧
    (∀ raw, s.entity? raw = s.entities.find? (·.raw = raw)) ∧
    (∀ raw place : Nat, s.index[raw]? = some place → place < s.entities.length) ∧
    ∀ raw ∈ s.removed, ∀ later : List (Operation α),
      raw ∈ (run later s).removed ∧ (run later s).entity? raw = none ∧
        ∀ e ∈ (run later s).entities, e.raw ≠ raw := by
  intro s
  have hs : s.WellFormed := wellFormed_run_empty ops name
  refine ⟨hs, hs.entity?_eq_find?, fun raw place hplace => hs.place_lt hplace, ?_⟩
  intro raw hraw later
  have hlater := evolves_run later s
  have hremoved : raw ∈ (run later s).removed := Arena.Evolves.removed hlater hraw
  have hgone := (hlater.wellFormed hs).removed_gone raw hremoved
  refine ⟨hremoved, (hlater.wellFormed hs).entity?_eq_none_iff.mpr hgone, ?_⟩
  rintro e he rfl
  exact hgone (List.mem_map_of_mem he)

end Operation

end PlaneSketch
