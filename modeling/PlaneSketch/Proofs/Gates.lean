import PlaneSketch.Proofs.Finite

/-!
# Gates

What stands between a drawing and the minimizer (`solve_inner`, `trial`): finite numbers, active
constraints that fit, no more equations than variables, something to move and something to move it
for, and a minimizer at all. The questions are asked in this order, and the first one that is
answered no decides the result. Only when none is, the minimizer is called.
-/

namespace PlaneSketch

variable {α σ : Type}

/-! ### Calls -/

/-- The minimizer with its calls counted in its state. -/
def Minimizer.counting (m : Minimizer α σ) : Minimizer α (Nat × σ) where
  name := m.name
  isAvailable := m.isAvailable
  minimize problem x options := fun (calls, state) =>
    let (run, state) := (m.minimize problem x options).run state
    (run, calls + 1, state)

variable [Scalar α]

open Scalar

namespace Objective

variable (o : Objective α) (m : Minimizer α σ) (c : SolveConfig α)

theorem run_rounds_counting (more : Nat) (carried : Carry α) (calls : Nat) (state : σ) :
    (o.rounds m.counting c more carried).run (calls, state) =
      let ran := (o.rounds m c more carried).run state
      (ran.1, calls + ran.1.all.length, ran.2) := by
  induction more generalizing carried calls state with
  | zero => rfl
  | succ more ih =>
    rw [run_rounds_succ, run_rounds_succ]
    have hfirst : (o.round m.counting c carried).run (calls, state) =
        (((o.round m c carried).run state).1, calls + 1, ((o.round m c carried).run state).2) := rfl
    rw [hfirst]
    dsimp only
    cases o.carry? c carried ((o.round m c carried).run state).1 with
    | none => rfl
    | some next =>
      simp only [ih, Rounds.all, List.cons_append, List.length_cons]
      rw [Nat.add_assoc, Nat.add_comm 1]

end Objective

namespace Sketch

variable (s : Sketch α) (m : Minimizer α σ) (c : SolveConfig α)

theorem run_trial_counting (calls : Nat) (state : σ) :
    (s.trial m.counting c).run (calls, state) =
      let ran := (s.trial m c).run state
      (ran.1, calls + ran.1.rounds.length, ran.2) := by
  have havailable : m.counting.isAvailable = m.isAvailable := rfl
  rw [trial_eq, trial_eq, havailable]
  cases s.pinned.isIdle with
  | true =>
    show (_, calls, state) = (_, calls + (c.judge s.pinned.freedom s.pinned).rounds.length, state)
    rw [SolveConfig.rounds_judge]
    rfl
  | false =>
    cases m.isAvailable with
    | false => rfl
    | true =>
      simp only [Bool.not_true, Bool.false_eq_true, if_false, run_bind,
        Objective.run_rounds_counting]
      generalize ((s.objective c).rounds m c (c.maxRounds - 1)
        ⟨(s.objective c).start, 0, none⟩).run state = ran
      let trial := (s.objective c).conclude c s.pinned.freedom m.name ran.1
      show (trial, calls + ran.1.all.length, ran.2) = (trial, calls + trial.rounds.length, ran.2)
      rw [Objective.rounds_conclude]

/-- Counting the calls changes nothing else, and the recorded rounds are the calls. -/
theorem run_solve_counting (calls : Nat) (state : σ) :
    (s.solve m.counting c).run (calls, state) =
      let ran := (s.solve m c).run state
      (ran.1, calls + ran.1.rounds.length, ran.2) := by
  unfold solve
  cases s.checkNumbers with
  | error => rfl
  | ok =>
    dsimp only
    cases s.purge.2.obstacle? with
    | some => rfl
    | none =>
      dsimp only
      rw [run_bind, run_bind, run_trial_counting]
      rfl

/-- How often a solve calls the minimizer. -/
def callsFrom (state : σ) : Nat := ((s.solve m.counting c).run (0, state)).2.1

theorem callsFrom_eq_length (state : σ) :
    s.callsFrom m c state = (s.solveFrom m c state).rounds.length := by
  unfold callsFrom solveFrom
  rw [run_solve_counting]
  exact Nat.zero_add _

end Sketch

/-! ### Refusals -/

/-- The fault of a number that is not finite. -/
def Fault.BlamesNumber (fault : Fault α) : Prop :=
  ∃ e quality v, fault = .notFinite e quality v ∧ isFinite v = false

theorem eq_error_of_bind {ε : Type} {first second : Except ε Unit} {error : ε}
    (h : (do first; second) = .error error) : first = .error error ∨ second = .error error := by
  cases first with
  | error => exact Or.inl h
  | ok => exact Or.inr h

theorem eq_error_of_forM {β ε : Type} {check : β → Except ε Unit} {xs : List β} {error : ε}
    (h : xs.forM check = .error error) : ∃ x ∈ xs, check x = .error error := by
  induction xs with
  | nil => cases h
  | cons x rest ih =>
    have hbind : (do check x; rest.forM check) = .error error := h
    rcases eq_error_of_bind hbind with hx | hrest
    · exact ⟨x, List.mem_cons_self .., hx⟩
    · obtain ⟨y, hy, herror⟩ := ih hrest
      exact ⟨y, List.mem_cons_of_mem _ hy, herror⟩

namespace Sketch

theorem blamesNumber_of_checkFinite {e : EntityRef} {quality : Quality} {v : α}
    {fault : Fault α} (h : checkFinite e quality v = .error fault) : fault.BlamesNumber := by
  unfold checkFinite at h
  split at h
  next => cases h
  next hv =>
    cases h
    exact ⟨e, quality, v, rfl, Bool.eq_false_iff.mpr hv⟩

theorem blamesNumber_of_checkEntity {e : Entity α} {fault : Fault α}
    (h : checkEntity e = .error fault) : fault.BlamesNumber := by
  cases e with
  | point p =>
    rcases eq_error_of_bind h with hx | hy
    · exact blamesNumber_of_checkFinite hx
    · exact blamesNumber_of_checkFinite hy
  | line l => cases h
  | circle k => exact blamesNumber_of_checkFinite h
  | arc a =>
    rcases eq_error_of_bind h with hradius | hangles
    · exact blamesNumber_of_checkFinite hradius
    · rcases eq_error_of_bind hangles with hstart | hstop
      · exact blamesNumber_of_checkFinite hstart
      · exact blamesNumber_of_checkFinite hstop

theorem blamesNumber_of_checkNumbers {s : Sketch α} {fault : Fault α}
    (h : s.checkNumbers = .error fault) : fault.BlamesNumber := by
  obtain ⟨_, -, he⟩ := eq_error_of_forM h
  exact blamesNumber_of_checkEntity he

omit [Scalar α] in
theorem isIdle_eq_true_iff (s : Sketch α) :
    s.isIdle = true ↔ s.slots = [] ∨ ∀ k ∈ s.active, k.requirement.isFixed = true := by
  unfold isIdle active
  simp only [Bool.or_eq_true, List.isEmpty_iff, Bool.not_eq_true', List.any_eq_false,
    Constraint.takesFreedom, Bool.and_eq_true, List.mem_filter, not_and, Bool.not_eq_false,
    and_imp]

omit [Scalar α] in
theorem isIdle_eq_false_iff (s : Sketch α) :
    s.isIdle = false ↔ s.slots ≠ [] ∧ ∃ k ∈ s.active, k.requirement.isFixed = false := by
  rw [← Bool.not_eq_true, isIdle_eq_true_iff]
  push Not
  simp only [Bool.not_eq_true]

omit [Scalar α] in
theorem isIdle_pinned (s : Sketch α) : s.pinned.isIdle = s.isIdle := by
  have hconstraints : s.pinned.constraints = s.constraints :=
    congrArg Outline.constraints s.outline_pinned
  simp only [isIdle, slots_pinned, hconstraints]

/-- All coordinates, radii and angles are finite. -/
def NumbersFinite (s : Sketch α) : Prop :=
  ∀ slot v, s.number? slot = some v → isFinite v = true

/-- All active constraints fit the sketch. -/
def ActiveFits (s : Sketch α) : Prop := ∀ k ∈ s.active, k.defect? s = none

/-- What it takes for the minimizer to be called, in the order in which it is asked for. -/
structure IsTried (s : Sketch α) (m : Minimizer α σ) : Prop where
  numbers : s.NumbersFinite
  fits : s.ActiveFits
  balanced : s.freedom.equations ≤ s.freedom.unknowns
  movable : s.slots ≠ []
  moving : ∃ k ∈ s.active, k.requirement.isFixed = false
  available : m.isAvailable = true

theorem WellFormed.isTried_iff {s : Sketch α} (hs : s.WellFormed) (m : Minimizer α σ) :
    s.purge.2.IsTried m ↔ s.checkNumbers = .ok () ∧ s.purge.2.obstacle? = none ∧
      s.purge.2.isIdle = false ∧ m.isAvailable = true := by
  have hdrawing : s.purge.2.WellFormed := s.evolves_purge.wellFormed hs
  have hnumbers : s.checkNumbers = .ok () ↔ s.purge.2.NumbersFinite := checkNumbers_eq_ok_iff s
  rw [hnumbers, hdrawing.obstacle?_eq_none_iff, isIdle_eq_false_iff]
  constructor
  · rintro ⟨hfinite, hfits, hbalanced, hmovable, hmoving, havailable⟩
    exact ⟨hfinite, ⟨hfits, hbalanced⟩, ⟨hmovable, hmoving⟩, havailable⟩
  · rintro ⟨hfinite, ⟨hfits, hbalanced⟩, ⟨hmovable, hmoving⟩, havailable⟩
    exact ⟨hfinite, hfits, hbalanced, hmovable, hmoving, havailable⟩

theorem WellFormed.status_of_obstacle? {s : Sketch α} (hs : s.WellFormed) {cause : Cause α}
    (h : s.obstacle? = some cause) :
    ¬s.ActiveFits ∧ cause.status = .inconsistent ∨
      s.ActiveFits ∧ s.freedom.unknowns < s.freedom.equations ∧
        cause.status = .overConstrained := by
  unfold obstacle? at h
  split at h
  next hinvalid =>
    cases h
    refine Or.inl ⟨?_, rfl⟩
    intro hfits
    rw [hs.invalidActive_eq_nil_iff.mpr hfits] at hinvalid
    cases hinvalid
  next hvalid =>
    rw [Bool.not_eq_true, Bool.not_eq_false', List.isEmpty_iff] at hvalid
    split at h
    next hover =>
      cases h
      exact Or.inr ⟨hs.invalidActive_eq_nil_iff.mp hvalid, of_decide_eq_true hover, rfl⟩
    next => cases h

open Classical in
theorem status_judge [OrderedScalar α] {s : Sketch α}
    (hfree : s.freedom.isOverConstrained = false) (c : SolveConfig α) :
    (c.judge s.freedom s).result.status =
      if s.Meets c then if s.freedom.dof = 0 then .fullyConstrained else .underConstrained
      else .inconsistent := by
  have hgood : ((ErrorSummary.of s s.active).nonFinite.isNone && c.accepts
      (ErrorSummary.of s s.active).aggregate (ErrorSummary.of s s.active).maxError) = true ↔
      s.Meets c := by
    rw [meets_iff, Bool.and_eq_true, Option.isNone_iff_eq_none]
  rw [← Freedom.classify_true hfree]
  unfold SolveConfig.judge
  dsimp only
  by_cases hmeets : s.Meets c
  · rw [if_pos hmeets, if_pos (hgood.mpr hmeets)]
    rfl
  · rw [if_neg hmeets, if_neg (fun h => hmeets (hgood.mp h))]
    rfl

open Classical in
theorem trial_gates [OrderedScalar α] (s : Sketch α) (m : Minimizer α σ) (c : SolveConfig α)
    (state : σ) (hfree : s.freedom.isOverConstrained = false) :
    let trial := ((s.trial m c).run state).1
    (trial.rounds ≠ [] ↔ s.isIdle = false ∧ m.isAvailable = true) ∧
    (trial.rounds = [] → trial.result.status =
      if s.isIdle then
        if s.pinned.Meets c then
          if s.freedom.dof = 0 then .fullyConstrained else .underConstrained
        else .inconsistent
      else .noSolver) := by
  intro trial
  have hfreedom : s.pinned.freedom = s.freedom := freedom_of_outline s.outline_pinned
  rw [← hfreedom] at hfree ⊢
  rw [← s.isIdle_pinned]
  rcases s.trial_cases m c state with ⟨hidle, ht⟩ | ⟨hidle, hm, ht⟩ | ⟨hidle, hm, ht⟩
  · rw [hidle, show trial = _ from ht, SolveConfig.rounds_judge]
    refine ⟨iff_of_false (· rfl) nofun, ?_⟩
    intro _
    exact status_judge hfree c
  · rw [hidle, hm, show trial = _ from ht]
    exact ⟨iff_of_false (· rfl) nofun, fun _ => rfl⟩
  · rw [hidle, hm, show trial = _ from ht, Objective.rounds_conclude, Rounds.all]
    refine ⟨iff_of_true (List.concat_ne_nil _ _) ⟨rfl, rfl⟩, ?_⟩
    intro hnone
    simp at hnone

open Classical in
/-- The minimizer is called exactly when every question on the way is answered yes; the first no
decides what a solve answers. Whether the minimizer is available is asked last, so a drawing with
nothing to move is judged as it is even without one. -/
theorem solve_gates [OrderedScalar α] {s : Sketch α} (hs : s.WellFormed) (m : Minimizer α σ)
    (c : SolveConfig α) (state : σ) :
    let drawing := s.purge.2
    let outcome := (s.solveFrom m c state).outcome
    let calls := s.callsFrom m c state
    (0 < calls ↔ drawing.IsTried m) ∧
    (¬drawing.NumbersFinite → ∃ fault, outcome = .error fault ∧ fault.BlamesNumber) ∧
    (drawing.NumbersFinite → ∃ r, outcome = .ok r ∧
      (calls = 0 → r.status =
        if ¬drawing.ActiveFits then .inconsistent
        else if drawing.freedom.unknowns < drawing.freedom.equations then .overConstrained
        else if drawing.slots = [] ∨ ∀ k ∈ drawing.active, k.requirement.isFixed = true then
          if drawing.pinned.Meets c then
            if drawing.freedom.dof = 0 then .fullyConstrained else .underConstrained
          else .inconsistent
        else .noSolver)) := by
  intro drawing outcome calls
  have hdrawing : drawing.WellFormed := s.evolves_purge.wellFormed hs
  have hcalls : calls = (s.solveFrom m c state).rounds.length := s.callsFrom_eq_length m c state
  have htried := hs.isTried_iff m
  rcases s.solve_cases m c state with ⟨fault, hfault, hsolve⟩ |
    ⟨hnumbers, cause, hobstacle, hsolve⟩ | ⟨hnumbers, hobstacle, t, ht, hsolve⟩
  · have hinfinite : ¬drawing.NumbersFinite := by
      intro hfinite
      rw [(checkNumbers_eq_ok_iff s).mpr hfinite] at hfault
      cases hfault
    have hnone : calls = 0 := by rw [hcalls, hsolve]; rfl
    refine ⟨iff_of_false (by omega) fun h => hinfinite h.numbers, ?_, fun h => absurd h hinfinite⟩
    intro _
    exact ⟨fault, congrArg Solved.outcome hsolve, blamesNumber_of_checkNumbers hfault⟩
  · have hfinite : drawing.NumbersFinite := (checkNumbers_eq_ok_iff s).mp hnumbers
    have hnone : calls = 0 := by rw [hcalls, hsolve]; rfl
    refine ⟨iff_of_false (by omega) ?_, fun h => absurd hfinite h, ?_⟩
    · intro h
      rw [(htried.mp h).2.1] at hobstacle
      cases hobstacle
    · intro _
      refine ⟨_, congrArg Solved.outcome hsolve, ?_⟩
      intro _
      rcases hdrawing.status_of_obstacle? hobstacle with ⟨hunfit, hstatus⟩ |
        ⟨hfits, hover, hstatus⟩
      · rw [if_pos hunfit]
        exact hstatus
      · rw [if_neg (not_not_intro hfits), if_pos hover]
        exact hstatus
  · have hfinite : drawing.NumbersFinite := (checkNumbers_eq_ok_iff s).mp hnumbers
    obtain ⟨hfits, hbalanced⟩ : drawing.ActiveFits ∧ _ :=
      hdrawing.obstacle?_eq_none_iff.mp hobstacle
    have hrounds : (s.solveFrom m c state).rounds = t.rounds := congrArg Solved.rounds hsolve
    obtain ⟨hcalled, hstatus⟩ :=
      drawing.trial_gates m c state ((equations_le_iff _).mp hbalanced)
    rw [ht] at hcalled hstatus
    refine ⟨?_, fun h => absurd hfinite h, ?_⟩
    · rw [hcalls, hrounds, List.length_pos_iff, hcalled, htried]
      exact ⟨fun h => ⟨hnumbers, hobstacle, h⟩, fun h => h.2.2⟩
    · intro _
      refine ⟨_, congrArg Solved.outcome hsolve, ?_⟩
      intro hnone
      rw [hcalls, hrounds, List.length_eq_zero_iff] at hnone
      rw [if_neg (not_not_intro hfits), if_neg (Nat.not_lt.mpr hbalanced), hstatus hnone]
      simp only [isIdle_eq_true_iff]

/-- The slanted drawing passes every question but the last one. -/
theorem solve_gates_slanted :
    0 < slanted.callsFrom (.answering [1.0, 0.0, 5.0]) .standard () ∧
      slanted.callsFrom .null .standard () = 0 ∧
      ∃ r, (slanted.solveFrom .null .standard ()).outcome = .ok r ∧ r.status = .noSolver := by
  have hcalled : 0 < slanted.callsFrom (.answering [1.0, 0.0, 5.0]) .standard () := by
    decide +kernel
  have hnone : slanted.callsFrom (.null : Minimizer Float Unit) .standard () = 0 := by
    decide +kernel
  have htried := (solve_gates wellFormed_slanted (.answering [1.0, 0.0, 5.0]) .standard ()).1.mp
    hcalled
  obtain ⟨r, hr, hstatus⟩ :=
    (solve_gates wellFormed_slanted .null .standard ()).2.2 htried.numbers
  refine ⟨hcalled, hnone, r, hr, ?_⟩
  rw [hstatus hnone, if_neg (not_not_intro htried.fits), if_neg (Nat.not_lt.mpr htried.balanced),
    if_neg]
  rintro (hempty | hheld)
  · exact htried.movable hempty
  · obtain ⟨k, hk, hfree⟩ := htried.moving
    rw [hheld k hk] at hfree
    cases hfree

end Sketch

end PlaneSketch
