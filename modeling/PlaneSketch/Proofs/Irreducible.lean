import Mathlib.Data.List.Sublists
import PlaneSketch.Proofs.Gates
import PlaneSketch.Proofs.Implied
import PlaneSketch.Proofs.Members

/-!
# Irreducible conflicts

A conflict that solving finds and narrows down (`localize`) has no member too many. Its members
cannot be solved together, and each was kept because a trial without it, of all other members and
maybe more, was accepted. So where fewer constraints are never harder to satisfy, the members
without any one of them can be satisfied.
-/

namespace PlaneSketch

variable {α σ : Type}

namespace Conflict

/-! ### Connected constraints -/

/-- The ids of some constraints and of all that share points with them, directly or through
others. -/
inductive Connected (s : Sketch α) (active : List (Constraint α)) (seeds : List ConstraintId) :
    ConstraintId → Prop
  | seed {id} (h : id ∈ seeds) : Connected s active seeds id
  | share {k other : Constraint α} {p : PointId} (known : Connected s active seeds k.id)
    (hk : k ∈ active) (hp : p ∈ s.touchedPoints k.requirement) (hother : other ∈ active)
    (shared : p ∈ s.touchedPoints other.requirement) : Connected s active seeds other.id

section Connected

variable {s : Sketch α} {active : List (Constraint α)} {seeds : List ConstraintId}

/-- What a search for connected constraints has found are such constraints and points of theirs. -/
structure Reached (s : Sketch α) (active : List (Constraint α)) (seeds : List ConstraintId)
    (found : List ConstraintId × List PointId) : Prop where
  ids : ∀ id ∈ found.1, Connected s active seeds id
  points : ∀ p ∈ found.2, ∃ k ∈ active, Connected s active seeds k.id ∧
    p ∈ s.touchedPoints k.requirement

theorem Reached.reachFrom {found : List ConstraintId × List PointId}
    (h : Reached s active seeds found) :
    Reached s active seeds
      (reachFrom (active.map fun k => (k.id, s.touchedPoints k.requirement)) found) := by
  refine List.foldlRecOn (motive := Reached s active seeds) _ _ h ?_
  rintro ⟨ids, points⟩ hfound ⟨id, own⟩ hin
  obtain ⟨k, hk, hpair⟩ := List.mem_map.mp hin
  cases hpair
  dsimp only
  split
  next hshares =>
    simp only [Bool.and_eq_true, decide_eq_true_eq, List.any_eq_true] at hshares
    obtain ⟨-, p, hown, hp⟩ := hshares
    obtain ⟨other, hother, hknown, hshared⟩ := hfound.points p hp
    have hconnected : Connected s active seeds k.id := .share hknown hother hshared hk hown
    refine ⟨List.forall_mem_cons.mpr ⟨hconnected, hfound.ids⟩, ?_⟩
    intro q hq
    rcases List.mem_append.mp hq with hq | hq
    · exact ⟨k, hk, hconnected, hq⟩
    · exact hfound.points q hq
  next => exact hfound

theorem connected_of_mem_connectedTo {id : ConstraintId} (h : id ∈ connectedTo s active seeds) :
    Connected s active seeds id := by
  let touched := active.map fun k => (k.id, s.touchedPoints k.requirement)
  let points := (touched.filter (·.1 ∈ seeds)).flatMap (·.2)
  have hstart : Reached s active seeds (seeds, points) := by
    refine ⟨fun id hid => .seed hid, ?_⟩
    intro p hp
    obtain ⟨pair, hpair, hp⟩ := List.mem_flatMap.mp hp
    obtain ⟨hin, hseed⟩ := List.mem_filter.mp hpair
    obtain ⟨k, hk, rfl⟩ := List.mem_map.mp hin
    exact ⟨k, hk, .seed (of_decide_eq_true hseed), hp⟩
  have hrounds (rounds : Nat) :
      Reached s active seeds (Nat.repeat (reachFrom touched) rounds (seeds, points)) := by
    induction rounds with
    | zero => exact hstart
    | succ rounds ih => exact ih.reachFrom
  exact (hrounds touched.length).ids id ((mem_ascendingIds_iff ..).mp h)

end Connected

/-! ### Feasible constraints -/

variable [Scalar α] {s : Sketch α} {m : Minimizer α σ} {c : DiagnosisConfig α}

def Feasible (s : Sketch α) (m : Minimizer α σ) (c : DiagnosisConfig α)
    (ids : List ConstraintId) : Prop :=
  ∀ state, ((isFeasible s m c ids).run state).1 = true

def Infeasible (s : Sketch α) (m : Minimizer α σ) (c : DiagnosisConfig α)
    (ids : List ConstraintId) : Prop :=
  ∀ state, ((isFeasible s m c ids).run state).1 = false

/-- Fewer active constraints are never harder to satisfy. -/
def IsMonotone (s : Sketch α) (m : Minimizer α σ) (c : DiagnosisConfig α) : Prop :=
  ∀ larger smaller, larger ⊆ s.active.map (·.id) → smaller ⊆ larger →
    Feasible s m c larger → Feasible s m c smaller

theorem isFeasible_congr {ids ids' : List ConstraintId} (h : ∀ id, id ∈ ids ↔ id ∈ ids') :
    isFeasible s m c ids = isFeasible s m c ids' := by
  unfold isFeasible
  simp only [h]

theorem run_isFeasible_eq (hm : m.IsDeterministic) (ids : List ConstraintId) (state state' : σ) :
    ((isFeasible s m c ids).run state).1 = ((isFeasible s m c ids).run state').1 :=
  congrArg Trial.accepted (hm.trial_eq _ c.solver state state')

theorem feasible_of_run (hm : m.IsDeterministic) {ids : List ConstraintId} {state : σ}
    (h : ((isFeasible s m c ids).run state).1 = true) : Feasible s m c ids :=
  fun state' => run_isFeasible_eq hm ids state' state ▸ h

theorem infeasible_of_run (hm : m.IsDeterministic) {ids : List ConstraintId} {state : σ}
    (h : ((isFeasible s m c ids).run state).1 = false) : Infeasible s m c ids :=
  fun state' => run_isFeasible_eq hm ids state' state ▸ h

/-! ### Narrowing down -/

theorem infeasible_shrink (hm : m.IsDeterministic) {candidates core : List ConstraintId}
    (h : Infeasible s m c core) (state : σ) :
    Infeasible s m c ((shrink s m c candidates core).run state).1 := by
  induction candidates generalizing core state with
  | nil => exact h
  | cons id rest ih =>
    rw [run_shrink_cons]
    refine ih ?_ _
    split
    · exact h
    next hsmaller => exact infeasible_of_run hm (Bool.not_eq_true _ ▸ hsmaller)

/-- What is kept was tested: the rest of what is kept was found to be feasible, together with what
was dropped later. -/
theorem exists_feasible_of_mem_shrink (hm : m.IsDeterministic)
    {candidates core : List ConstraintId} {state : σ} {id : ConstraintId}
    (h : id ∈ ((shrink s m c candidates core).run state).1) (hid : id ∈ candidates) :
    ∃ tested, Feasible s m c tested ∧ tested ⊆ core ∧
      ∀ other ∈ ((shrink s m c candidates core).run state).1, other ≠ id → other ∈ tested := by
  induction candidates generalizing core state with
  | nil => cases hid
  | cons first rest ih =>
    rw [run_shrink_cons] at h ⊢
    split at h
    next hfeasible =>
      rw [if_pos hfeasible]
      rcases List.mem_cons.mp hid with rfl | hrest
      · refine ⟨core.filter (· ≠ id), feasible_of_run hm hfeasible, ?_, ?_⟩
        · exact List.filter_sublist.subset
        · intro other hother hne
          have hcore : other ∈ core := shrink_subset s m c rest core _ hother
          exact List.mem_filter.mpr ⟨hcore, by simpa using hne⟩
      · exact ih h hrest
    next hinfeasible =>
      rw [if_neg hinfeasible]
      have hkept : id ∈ core.filter (· ≠ first) := shrink_subset s m c rest _ _ h
      have hne : id ≠ first := by simpa using (List.mem_filter.mp hkept).2
      obtain ⟨tested, htested, hsubset, hothers⟩ := ih h ((List.mem_cons.mp hid).resolve_left hne)
      exact ⟨tested, htested, List.Subset.trans hsubset List.filter_sublist.subset, hothers⟩

/-! ### Nothing to satisfy -/

theorem accepted_judge_nil {s : Sketch Float} {c : SolveConfig Float} (hs : s.active = [])
    (haggregate : 0.0 < c.aggregateTolerance) (hmax : 0.0 < c.maxErrorTolerance)
    (freedom : Freedom) : (c.judge freedom s).accepted = true := by
  have hroot : Scalar.sqrt (0.0 : Float) = 0.0 := by decide +kernel
  have haccepts : c.accepts (Scalar.sqrt 0.0) 0.0 = true := by
    simp [SolveConfig.accepts, hroot, haggregate, hmax]
  have herrors : ErrorSummary.of s s.active = ⟨Scalar.sqrt 0.0, 0.0, none, none⟩ := by
    rw [hs]
    rfl
  unfold SolveConfig.judge
  rw [herrors]
  dsimp only
  rw [haccepts]
  rfl

theorem feasible_nil {s : Sketch Float} {m : Minimizer Float σ} {c : DiagnosisConfig Float}
    (haggregate : 0.0 < c.solver.aggregateTolerance) (hmax : 0.0 < c.solver.maxErrorTolerance) :
    Feasible s m c [] := by
  intro state
  let bare := s.without ((s.constraints.map (·.id)).filter (· ∉ []))
  have hactive : bare.active = [] := by
    rw [Sketch.active_without, List.filter_eq_nil_iff]
    intro k hk
    have hin : k.id ∈ s.constraints.map (·.id) := List.mem_map_of_mem (List.mem_filter.mp hk).1
    simp [hin]
  have hidle : bare.pinned.isIdle = true := by
    rw [Sketch.isIdle_pinned, Sketch.isIdle_eq_true_iff, hactive]
    exact Or.inr nofun
  have hpinned : bare.pinned.active = [] :=
    (Sketch.active_of_outline bare.outline_pinned).trans hactive
  show ((bare.trial m c.solver).run state).1.accepted = true
  rcases bare.trial_cases m c.solver state with ⟨-, ht⟩ | ⟨hbusy, -⟩ | ⟨hbusy, -⟩
  · rw [ht]
    exact accepted_judge_nil hpinned haggregate hmax _
  · rw [hidle] at hbusy
    cases hbusy
  · rw [hidle] at hbusy
    cases hbusy

/-! ### Conflicts that were narrowed down -/

/-- The explanation promises that the members without any one of them can be satisfied. -/
def IsNarrowed (conflict : Conflict) (s : Sketch α) : Prop :=
  conflict.explanation = s.labelsOf conflict.members ++
    " cannot all be satisfied; removing any one of them makes the rest solvable"

omit [Scalar α] in
theorem not_isNarrowed_ofUnsolved (s : Sketch α) (ids : List ConstraintId) :
    ¬(ofUnsolved s ids false).IsNarrowed s := by
  intro h
  have hends := (String.append_right_inj (s.labelsOf (ascendingIds ids))).mp h
  exact absurd hends (by decide)

/-- A conflict that was narrowed down is infeasible, and so not empty, and made of active constraints
that are connected with those that a trial leaves unsatisfied. Where fewer constraints are never
harder to satisfy, it keeps its promise. -/
theorem narrowed_irreducible {s : Sketch Float} {m : Minimizer Float σ}
    {c : DiagnosisConfig Float} {state : σ} {conflict : Conflict} (hm : m.IsDeterministic)
    (haggregate : 0.0 < c.solver.aggregateTolerance) (hmax : 0.0 < c.solver.maxErrorTolerance)
    (h : ((bySolving? s s.validActive m c).run state).1 = some conflict)
    (hnarrowed : conflict.IsNarrowed s) :
    let trial := ((s.trial m c.solver).run state).1
    let seeds := unsatisfied s.validActive c.solver.maxErrorTolerance trial
    (∀ id ∈ conflict.members, id ∈ s.active.map (·.id) ∧ Connected s s.validActive seeds id) ∧
    Infeasible s m c conflict.members ∧
    conflict.members ≠ [] ∧
    (IsMonotone s m c → ∀ id ∈ conflict.members,
      Feasible s m c (conflict.members.filter (· ≠ id))) := by
  intro trial seeds
  let connected := connectedTo s s.validActive seeds
  rcases bySolving?_cases h with rfl | ⟨before, state', hinfeasible, rfl⟩
  · exact absurd hnarrowed (not_isNarrowed_ofUnsolved s _)
  let core := ((shrink s m c connected connected).run state').1
  have hactive : ascendingIds core ⊆ s.active.map (·.id) := members_subset_of_bySolving? h
  have hcore : core ⊆ connected := shrink_subset s m c connected connected state'
  have hstuck : Infeasible s m c (ascendingIds core) := by
    have hshrunk : Infeasible s m c core :=
      infeasible_shrink hm (infeasible_of_run hm hinfeasible) state'
    intro state
    rw [isFeasible_congr fun id => mem_ascendingIds_iff id core]
    exact hshrunk state
  refine ⟨?_, hstuck, ?_, ?_⟩
  · intro id hid
    have hconnected : id ∈ connected := hcore ((mem_ascendingIds_iff id core).mp hid)
    exact ⟨hactive hid, connected_of_mem_connectedTo hconnected⟩
  · intro hempty
    have hnone : Infeasible s m c [] := hempty ▸ hstuck
    have hall : Feasible s m c [] := feasible_nil haggregate hmax
    exact absurd (hall state) (Bool.eq_false_iff.mp (hnone state))
  · intro hmonotone id hid
    have hkept : id ∈ core := (mem_ascendingIds_iff id core).mp hid
    obtain ⟨tested, htested, hsubset, hothers⟩ :=
      exists_feasible_of_mem_shrink hm hkept (hcore hkept)
    refine hmonotone tested _ ?_ ?_ htested
    · refine List.Subset.trans hsubset (connectedTo_subset s.validActive_ids_subset ?_)
      exact unsatisfied_trial_subset s m c.solver state
    · intro other hother
      obtain ⟨hmember, hne⟩ := List.mem_filter.mp hother
      exact hothers other ((mem_ascendingIds_iff other core).mp hmember) (by simpa using hne)

end Conflict

/-- A minimizer that knows some answers and gives the first one without error. -/
def Minimizer.choosing (answers : List (List Float)) : Minimizer Float Unit where
  name := "choosing"
  isAvailable := true
  minimize problem x _ :=
    let solves (answer : List Float) : Bool := problem.aggregate (problem.residuals answer) = 0.0
    pure ⟨.ok ⟨.converged .step, 1, 1, 0.0⟩, (answers.find? solves).getD x, []⟩

/-- Three points that are to be farther apart than the triangle inequality allows. -/
def Sketch.overstretched : Sketch Float :=
  let s := ((empty "overstretched").addFixedPoint ⟨0.0, 0.0⟩).2
  let s := (s.addPoint ⟨5.0, 1.0⟩).2
  let s := (s.addPoint ⟨2.0, 2.0⟩).2
  let s := (s.addConstraint (.distance ⟨0⟩ ⟨1⟩ 5.0)).2
  let s := (s.addConstraint (.distance ⟨0⟩ ⟨2⟩ 1.0)).2
  (s.addConstraint (.distance ⟨1⟩ ⟨2⟩ 10.0)).2

namespace Conflict

open Sketch

/-- One answer for each two of the three distances. -/
def twoOfThree : Minimizer Float Unit :=
  .choosing [[5.0, 0.0, 1.0, 0.0], [5.0, 0.0, 15.0, 0.0], [11.0, 0.0, 1.0, 0.0]]

theorem isMonotone_overstretched : IsMonotone overstretched twoOfThree .standard := by
  let ids : List ConstraintId := [⟨0⟩, ⟨1⟩, ⟨2⟩]
  have hactive : overstretched.active.map (·.id) = ids := rfl
  have hproper : ∀ kept ∈ ids.sublists, kept ≠ ids →
      ((isFeasible overstretched twoOfThree .standard kept).run ()).1 = true := by
    decide +kernel
  intro larger smaller hlarger hsubset hfeasible
  rw [hactive] at hlarger
  let kept := ids.filter (· ∈ smaller)
  have hkept : ∀ id, id ∈ kept ↔ id ∈ smaller := by
    intro id
    rw [List.mem_filter, decide_eq_true_eq, and_iff_right_iff_imp]
    exact fun hid => hlarger (hsubset hid)
  by_cases hall : kept = ids
  · have hsame : ∀ id, id ∈ smaller ↔ id ∈ larger := by
      intro id
      refine ⟨fun hid => hsubset hid, fun hid => ?_⟩
      rw [← hkept, hall]
      exact hlarger hid
    intro state
    rw [isFeasible_congr hsame]
    exact hfeasible state
  · intro state
    rw [← isFeasible_congr hkept]
    exact hproper kept (List.mem_sublists.mpr List.filter_sublist) hall

theorem narrowed_irreducible_overstretched :
    let found := ((bySolving? overstretched overstretched.validActive twoOfThree .standard).run ()).1
    (found.map fun conflict => (conflict.members, conflict.explanation)) =
      some ([⟨0⟩, ⟨1⟩, ⟨2⟩], "Distance #0, Distance #1, Distance #2 cannot all be satisfied; " ++
        "removing any one of them makes the rest solvable") ∧
    IsMonotone overstretched twoOfThree .standard ∧
    Infeasible overstretched twoOfThree .standard [⟨0⟩, ⟨1⟩, ⟨2⟩] ∧
    Feasible overstretched twoOfThree .standard [⟨0⟩, ⟨1⟩] := by
  intro found
  have hfound : (found.map fun conflict => (conflict.members, conflict.explanation)) =
      some ([⟨0⟩, ⟨1⟩, ⟨2⟩], "Distance #0, Distance #1, Distance #2 cannot all be satisfied; " ++
        "removing any one of them makes the rest solvable") := by
    decide +kernel
  obtain ⟨conflict, hsome, hconflict⟩ := Option.map_eq_some_iff.mp hfound
  obtain ⟨hmembers, hexplanation⟩ := Prod.mk.inj hconflict
  have hnarrowed : conflict.IsNarrowed overstretched := by
    unfold IsNarrowed
    rw [hexplanation, hmembers]
    decide +kernel
  have hm : twoOfThree.IsDeterministic := fun _ _ _ _ _ => rfl
  obtain ⟨-, hinfeasible, -, hrest⟩ :=
    narrowed_irreducible hm (by decide +kernel) (by decide +kernel) hsome hnarrowed
  have hlast := hrest isMonotone_overstretched ⟨2⟩ (by rw [hmembers]; decide)
  rw [hmembers] at hinfeasible hlast
  exact ⟨hfound, isMonotone_overstretched, hinfeasible, hlast⟩

end Conflict

end PlaneSketch
