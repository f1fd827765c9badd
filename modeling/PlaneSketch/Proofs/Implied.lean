import PlaneSketch.Proofs.Findings
import PlaneSketch.Proofs.Frame
import PlaneSketch.Proofs.Success

/-!
# Implied constraints

Redundant constraints are found from the newest to the oldest (`find_redundant`), and what was found
stays away from the tests of older ones. So every one of them is implied by what is left when it and
all newer ones are taken out; they may be taken out together, and what is left still solves.
-/

namespace PlaneSketch

variable {α σ : Type}

theorem pairwise_mergeSort_key {β : Type} (key : β → Nat) (members : List β) :
    (members.mergeSort fun a b => key a ≤ key b).Pairwise fun a b => key a ≤ key b := by
  have hsorted : (members.mergeSort fun a b => key a ≤ key b).Pairwise fun a b =>
      decide (key a ≤ key b) = true := by
    refine List.pairwise_mergeSort ?_ ?_ _
    · intro a b c hab hbc
      exact decide_eq_true (Nat.le_trans (of_decide_eq_true hab) (of_decide_eq_true hbc))
    · intro a b
      simpa using Nat.le_total (key a) (key b)
  exact hsorted.imp of_decide_eq_true

/-! ### Deterministic trials -/

/-- A minimizer whose answers do not depend on its state. -/
def Minimizer.IsDeterministic (m : Minimizer α σ) : Prop :=
  ∀ problem x options state state',
    ((m.minimize problem x options).run state).1 = ((m.minimize problem x options).run state').1

variable [Scalar α] {m : Minimizer α σ}

theorem Minimizer.isDeterministic_answering (answer : List α) :
    (answering answer).IsDeterministic :=
  fun _ _ _ _ _ => rfl

theorem Minimizer.IsDeterministic.rounds_eq (hm : m.IsDeterministic) (o : Objective α)
    (c : SolveConfig α) (more : Nat) (carried : Carry α) (state state' : σ) :
    ((o.rounds m c more carried).run state).1 = ((o.rounds m c more carried).run state').1 := by
  have hround (carried : Carry α) (state state' : σ) :
      ((o.round m c carried).run state).1 = ((o.round m c carried).run state').1 :=
    congrArg (fun run => (⟨carried.x, carried.x, c.options carried.spent, run⟩ : Round α))
      (hm _ _ _ state state')
  induction more generalizing carried state state' with
  | zero => exact congrArg (Rounds.mk []) (hround carried state state')
  | succ more ih =>
    rw [Objective.run_rounds_succ, Objective.run_rounds_succ]
    dsimp only
    rw [hround carried state state']
    cases o.carry? c carried ((o.round m c carried).run state').1 with
    | none => rfl
    | some next =>
      dsimp only
      rw [ih next _ ((o.round m c carried).run state').2]

theorem Minimizer.IsDeterministic.trial_eq (hm : m.IsDeterministic) (s : Sketch α)
    (c : SolveConfig α) (state state' : σ) :
    ((s.trial m c).run state).1 = ((s.trial m c).run state').1 := by
  rw [s.trial_eq]
  cases s.pinned.isIdle with
  | true => rfl
  | false =>
    cases m.isAvailable with
    | false => rfl
    | true =>
      exact congrArg ((s.objective c).conclude c s.pinned.freedom m.name)
        (hm.rounds_eq _ _ _ _ state state')

namespace Sketch

variable {s : Sketch α} {c : DiagnosisConfig α}

/-! ### Taking constraints out -/

omit [Scalar α] in
theorem without_congr {ids ids' : List ConstraintId} (h : ∀ id, id ∈ ids ↔ id ∈ ids') :
    s.without ids = s.without ids' := by
  unfold without
  simp only [h]

/-- The sketch with its constraints under some ids removed. -/
def removing (s : Sketch α) (ids : List ConstraintId) : Sketch α :=
  { s with constraints := s.constraints.filter (·.id ∉ ids) }

omit [Scalar α] in
/-- A trial does not see whether constraints are removed or disabled. -/
theorem onlyActive_removing (s : Sketch α) (ids : List ConstraintId) :
    (s.removing ids).onlyActive = (s.without ids).onlyActive := by
  have hactive : (s.removing ids).active = (s.without ids).active := by
    rw [active_without]
    show (s.constraints.filter _).filter _ = (s.constraints.filter _).filter _
    rw [List.filter_filter, List.filter_filter]
    exact List.filter_congr fun k _ => Bool.and_comm _ _
  show { s with constraints := (s.removing ids).active } = _
  rw [hactive]
  rfl

/-! ### Tests -/

/-- The constraint holds where the sketch is solved without some constraints. -/
def HoldsWithout (s : Sketch α) (m : Minimizer α σ) (c : DiagnosisConfig α)
    (ids : List ConstraintId) (k : Constraint α) (state : σ) : Prop :=
  let trial := (((s.without ids).trial m c.solver).run state).1
  trial.accepted = true ∧ ¬c.redundancyTolerance < trial.sketch.errorOf k.requirement

theorem HoldsWithout.congr {ids ids' : List ConstraintId} {k : Constraint α} {state : σ}
    (h : s.HoldsWithout m c ids k state) (hids : ∀ id, id ∈ ids ↔ id ∈ ids') :
    s.HoldsWithout m c ids' k state := by
  unfold HoldsWithout at h ⊢
  rwa [without_congr hids] at h

theorem HoldsWithout.of_state (hm : m.IsDeterministic) {ids : List ConstraintId} {k : Constraint α}
    {state : σ} (h : s.HoldsWithout m c ids k state) (state' : σ) :
    s.HoldsWithout m c ids k state' := by
  unfold HoldsWithout at h ⊢
  rwa [hm.trial_eq _ _ state state'] at h

theorem holdsWithout_of_isImplied {excluded : List ConstraintId} {k : Constraint α} {state : σ}
    (h : ((s.isImplied m c excluded k).run state).1 = true) :
    s.HoldsWithout m c (k.id :: excluded) k state := by
  unfold isImplied at h
  rw [run_bind_fst] at h
  unfold HoldsWithout
  generalize (((s.without (k.id :: excluded)).trial m c.solver).run state).1 = trial at h ⊢
  have htests : (trial.accepted && !(c.redundancyTolerance < trial.sketch.errorOf k.requirement) &&
      trial.sketch.spans c k) = true := h
  simp only [Bool.and_eq_true, Bool.not_eq_true', decide_eq_false_iff_not] at htests
  exact htests.1

theorem run_redundantAmong_cons (excluded : List ConstraintId) (k : Constraint α)
    (older : List (Constraint α)) (state : σ) :
    ((s.redundantAmong m c excluded (k :: older)).run state).1 =
      let test := (s.isImplied m c excluded k).run state
      if test.1 then
        ⟨k.id, s.redundancyReason (s.without (k.id :: excluded)) k⟩ ::
          ((s.redundantAmong m c (k.id :: excluded) older).run test.2).1
      else ((s.redundantAmong m c excluded older).run test.2).1 := by
  rw [redundantAmong, run_bind_fst]
  dsimp only
  split <;> rfl

/-- The constraints stand from the newest to the oldest. -/
def NewestFirst (constraints : List (Constraint α)) : Prop :=
  constraints.Pairwise fun newer older => older.id.raw < newer.id.raw

theorem redundantAmong_sublist (excluded : List ConstraintId) (candidates : List (Constraint α))
    (state : σ) :
    (((s.redundantAmong m c excluded candidates).run state).1.map (·.id)).Sublist
      (candidates.map (·.id)) := by
  induction candidates generalizing excluded state with
  | nil => exact List.Sublist.refl _
  | cons k older ih =>
    rw [run_redundantAmong_cons]
    dsimp only
    split
    · exact (ih _ _).cons_cons _
    · exact (ih _ _).cons _

/-- Of ids older than one and ids newer than it, those that are not older. -/
theorem mem_not_older_iff {own : ConstraintId} {older newer : List ConstraintId}
    (holder : ∀ id ∈ older, id.raw < own.raw) (hnewer : ∀ id ∈ newer, own.raw < id.raw)
    (id : ConstraintId) :
    id ∈ (own :: older ++ newer).filter (own.raw ≤ ·.raw) ↔ id ∈ own :: newer := by
  simp only [List.mem_filter, List.mem_append, List.mem_cons, decide_eq_true_eq]
  constructor
  · rintro ⟨(rfl | hid) | hid, hle⟩
    · exact Or.inl rfl
    · exact absurd (holder id hid) (Nat.not_lt.mpr hle)
    · exact Or.inr hid
  · rintro (rfl | hid)
    · exact ⟨Or.inl (Or.inl rfl), Nat.le_refl _⟩
    · exact ⟨Or.inr hid, Nat.le_of_lt (hnewer id hid)⟩

/-- What is found holds when it and all newer findings are taken out, and with them what was taken
out before. -/
theorem redundantAmong_holdsWithout {excluded : List ConstraintId}
    {candidates : List (Constraint α)} (hcandidates : NewestFirst candidates)
    (hexcluded : ∀ id ∈ excluded, ∀ k ∈ candidates, k.id.raw < id.raw) (state : σ) :
    let ids := ((s.redundantAmong m c excluded candidates).run state).1.map (·.id)
    ∀ id ∈ ids, ∃ k ∈ candidates, k.id = id ∧ ∃ state',
      s.HoldsWithout m c ((ids ++ excluded).filter (id.raw ≤ ·.raw)) k state' := by
  induction candidates generalizing excluded state with
  | nil => exact fun _ hid => nomatch hid
  | cons k older ih =>
    obtain ⟨hnewest, holder⟩ := List.pairwise_cons.mp hcandidates
    have hexcludedOlder : ∀ id ∈ excluded, ∀ other ∈ older, other.id.raw < id.raw :=
      fun id hid other hother => hexcluded id hid other (List.mem_cons_of_mem _ hother)
    rw [run_redundantAmong_cons]
    dsimp only
    split
    next himplied =>
      generalize ((s.isImplied m c excluded k).run state).2 = after
      have hexcludedNow : ∀ id ∈ k.id :: excluded, ∀ other ∈ older, other.id.raw < id.raw :=
        List.forall_mem_cons.mpr ⟨hnewest, hexcludedOlder⟩
      have hlater := ih holder hexcludedNow after
      have hsublist := redundantAmong_sublist (s := s) (m := m) (c := c) (k.id :: excluded) older
        after
      rw [List.map_cons]
      generalize ((s.redundantAmong m c (k.id :: excluded) older).run after).1.map (·.id) = later
        at hlater hsublist ⊢
      have hlaterOlder : ∀ id ∈ later, id.raw < k.id.raw := by
        intro id hid
        obtain ⟨other, hother, rfl⟩ := List.mem_map.mp (hsublist.subset hid)
        exact hnewest other hother
      refine List.forall_mem_cons.mpr ⟨⟨k, List.mem_cons_self .., rfl, state, ?_⟩, ?_⟩
      · have hnewer : ∀ id ∈ excluded, k.id.raw < id.raw :=
          fun id hid => hexcluded id hid k (List.mem_cons_self ..)
        exact (holdsWithout_of_isImplied himplied).congr fun id =>
          (mem_not_older_iff hlaterOlder hnewer id).symm
      · intro id hid
        obtain ⟨other, hother, hsame, state', hholds⟩ := hlater id hid
        refine ⟨other, List.mem_cons_of_mem _ hother, hsame, state', hholds.congr fun taken => ?_⟩
        simp only [List.mem_filter, List.mem_append, List.mem_cons, or_left_comm, or_assoc]
    next =>
      intro id hid
      obtain ⟨other, hother, hsame, himplied⟩ := ih holder hexcludedOlder _ id hid
      exact ⟨other, List.mem_cons_of_mem _ hother, hsame, himplied⟩

/-! ### The findings together -/

omit [Scalar α] in
theorem WellFormed.newestFirst (hs : s.WellFormed) :
    NewestFirst (s.constraints.filter (·.takesFreedom)).reverse := by
  have hascending : s.constraints.Pairwise fun older newer => older.id.raw < newer.id.raw :=
    List.pairwise_map.mp hs.constraints_ascending
  exact List.pairwise_reverse.mpr (hascending.sublist List.filter_sublist)

omit [Scalar α] in
/-- Fewer are newer than one of the newest. -/
theorem NewestFirst.length_newer_lt {constraints : List (Constraint α)}
    (h : NewestFirst constraints) {count : Nat} {k : Constraint α}
    (hk : k ∈ constraints.take count) :
    (constraints.filter (k.id.raw < ·.id.raw)).length < count := by
  obtain ⟨newer, older, htake⟩ := List.append_of_mem hk
  have hcount : newer.length < count := by
    have hlength := List.length_take_le count constraints
    rw [htake, List.length_append, List.length_cons] at hlength
    omega
  rw [← List.take_append_drop count constraints, htake] at h ⊢
  rw [List.append_assoc, List.cons_append] at h ⊢
  have hrest : (k :: (older ++ constraints.drop count)).filter (k.id.raw < ·.id.raw) = [] := by
    refine List.filter_eq_nil_iff.mpr ?_
    simp only [decide_eq_true_eq]
    refine List.forall_mem_cons.mpr ⟨Nat.lt_irrefl _, ?_⟩
    intro other hother
    have holder := (List.pairwise_cons.mp (List.pairwise_append.mp h).2.1).1 other hother
    omega
  rw [List.filter_append, hrest, List.append_nil]
  exact Nat.lt_of_le_of_lt (List.length_filter_le ..) hcount

theorem WellFormed.of_mem_redundancyCandidates (hs : s.WellFormed) {k : Constraint α}
    (hk : k ∈ s.redundancyCandidates c) :
    k ∈ s.constraints ∧ k.takesFreedom = true ∧
      (s.constraints.filter fun newer => newer.takesFreedom && k.id.raw < newer.id.raw).length <
        c.maxRedundancyCandidates := by
  obtain ⟨hmem, hfree⟩ := List.mem_filter.mp (List.mem_reverse.mp (List.mem_of_mem_take hk))
  refine ⟨hmem, hfree, ?_⟩
  have hcount := hs.newestFirst.length_newer_lt hk
  rw [List.filter_reverse, List.length_reverse, List.filter_filter] at hcount
  refine Nat.lt_of_le_of_lt (Nat.le_of_eq ?_) hcount
  exact congrArg List.length (List.filter_congr fun _ _ => Bool.and_comm ..)

theorem redundancies_perm (s : Sketch α) (m : Minimizer α σ) (c : DiagnosisConfig α) (state : σ) :
    ((s.redundancies m c).run state).1.Perm
      ((s.redundantAmong m c [] (s.redundancyCandidates c)).run state).1 :=
  List.mergeSort_perm ..

theorem redundancies_ids_subset (s : Sketch α) (m : Minimizer α σ) (c : DiagnosisConfig α)
    (state : σ) : ((s.redundancies m c).run state).1.map (·.id) ⊆ s.constraints.map (·.id) := by
  have hcandidates : s.redundancyCandidates c ⊆ s.constraints := by
    intro k hk
    exact List.mem_of_mem_filter (List.mem_reverse.mp (List.mem_of_mem_take hk))
  refine List.Subset.trans ((s.redundancies_perm m c state).map _).subset ?_
  refine List.Subset.trans (redundantAmong_sublist ..).subset ?_
  exact List.map_subset _ hcandidates

theorem WellFormed.redundancies_ascending (hs : s.WellFormed) (m : Minimizer α σ)
    (c : DiagnosisConfig α) (state : σ) :
    (((s.redundancies m c).run state).1.map (·.id)).Pairwise (·.raw < ·.raw) := by
  have hascending : (((s.redundancies m c).run state).1).Pairwise (·.id.raw ≤ ·.id.raw) :=
    pairwise_mergeSort_key (fun found : Redundancy => found.id.raw) _
  have hnodup : (((s.redundancies m c).run state).1.map (·.id)).Nodup := by
    have hcandidates : ((s.redundancyCandidates c).map (·.id)).Nodup := by
      refine List.pairwise_map.mpr ((hs.newestFirst.sublist (List.take_sublist ..)).imp ?_)
      intro newer older holder hsame
      rw [hsame] at holder
      exact Nat.lt_irrefl _ holder
    refine ((s.redundancies_perm m c state).map _).nodup_iff.mpr ?_
    exact hcandidates.sublist (redundantAmong_sublist ..)
  refine List.pairwise_map.mpr ((hascending.and (List.pairwise_map.mp hnodup)).imp ?_)
  rintro a b ⟨hle, hne⟩
  refine Nat.lt_of_le_of_ne hle fun hraw => hne ?_
  exact congrArg ConstraintId.mk hraw

theorem WellFormed.redundancies_holdWithout (hs : s.WellFormed) (hm : m.IsDeterministic)
    (c : DiagnosisConfig α) (state : σ) :
    let ids := ((s.redundancies m c).run state).1.map (·.id)
    ∀ id ∈ ids, ∃ k ∈ s.redundancyCandidates c, k.id = id ∧
      ∀ state', s.HoldsWithout m c (ids.filter (id.raw ≤ ·.raw)) k state' := by
  intro ids id hid
  have hids : ∀ id, id ∈ ids ↔
      id ∈ ((s.redundantAmong m c [] (s.redundancyCandidates c)).run state).1.map (·.id) :=
    fun id => ((s.redundancies_perm m c state).map _).mem_iff
  have hcandidates : NewestFirst (s.redundancyCandidates c) :=
    hs.newestFirst.sublist (List.take_sublist ..)
  obtain ⟨k, hk, hsame, state', hholds⟩ := redundantAmong_holdsWithout hcandidates
    (List.forall_mem_nil _) state id ((hids id).mp hid)
  refine ⟨k, hk, hsame, (hholds.congr fun other => ?_).of_state hm⟩
  rw [List.append_nil, List.mem_filter, List.mem_filter, hids]

/-- Where a constraint holds without itself, the others meet the tolerances. -/
theorem HoldsWithout.exists_meets [OrderedScalar α] {id : ConstraintId} {k : Constraint α}
    {state : σ} (h : s.HoldsWithout m c [id] k state) :
    ∃ t : Sketch α, t.outline = s.outline ∧ (t.without [id]).Meets c.solver ∧
      ¬c.redundancyTolerance < t.errorOf k.requirement := by
  have hsound := (s.without [id]).trial_sound m c.solver state h.1
  have houtline := (s.without [id]).outline_trial m c.solver state
  have hholds := h.2
  generalize (((s.without [id]).trial m c.solver).run state).1 = trial
    at hsound houtline hholds
  have hmeets : trial.sketch.Meets c.solver := by
    refine (trial.sketch.meets_iff c.solver).mpr ?_
    rw [← hsound.errors]
    exact ⟨hsound.finite, hsound.accepts⟩
  refine ⟨{ trial.sketch with constraints := s.constraints }, ?_, ?_, hholds⟩
  · exact congrArg (fun o => { o with constraints := s.constraints }) houtline
  · have hconstraints : trial.sketch.constraints = (s.without [id]).constraints :=
      congrArg Outline.constraints houtline
    show Sketch.Meets { trial.sketch with constraints := (s.without [id]).constraints } c.solver
    rwa [← hconstraints]

/-- With a minimizer whose answers depend on its input alone, redundant constraints are redundant
together. Their ids ascend, and each belongs to one of the newest constraints that take freedom. A
trial without it and all newer ones is accepted, and the constraint holds there. So the drawing
without all of them is accepted, whether they are disabled or removed, and one state of the drawing
meets the tolerances in all active constraints but the newest redundant one, which holds there. -/
theorem redundancies_hold_together [OrderedScalar α] (hs : s.WellFormed) (hm : m.IsDeterministic)
    (c : DiagnosisConfig α) (state : σ) :
    let ids := ((s.redundancies m c).run state).1.map (·.id)
    ids.Pairwise (·.raw < ·.raw) ∧
    (∀ id ∈ ids, ∃ k ∈ s.constraints, k.id = id ∧ k.takesFreedom = true ∧
      (s.constraints.filter fun newer => newer.takesFreedom && id.raw < newer.id.raw).length <
        c.maxRedundancyCandidates ∧
      ∀ state', s.HoldsWithout m c (ids.filter (id.raw ≤ ·.raw)) k state') ∧
    (ids ≠ [] → ∀ state',
      (((s.without ids).trial m c.solver).run state').1.accepted = true ∧
      (((s.removing ids).trial m c.solver).run state').1.accepted = true) ∧
    ∀ newest, ids.getLast? = some newest → ∃ k ∈ s.constraints, k.id = newest ∧
      ∃ t : Sketch α, t.outline = s.outline ∧ (t.without [newest]).Meets c.solver ∧
        ¬c.redundancyTolerance < t.errorOf k.requirement := by
  intro ids
  have hascending : ids.Pairwise (·.raw < ·.raw) := hs.redundancies_ascending m c state
  have heach : ∀ id ∈ ids, ∃ k ∈ s.redundancyCandidates c, k.id = id ∧
      ∀ state', s.HoldsWithout m c (ids.filter (id.raw ≤ ·.raw)) k state' :=
    hs.redundancies_holdWithout hm c state
  refine ⟨hascending, ?_, ?_, ?_⟩
  · intro id hid
    obtain ⟨k, hk, rfl, hholds⟩ := heach id hid
    obtain ⟨hmem, hfree, hcount⟩ := hs.of_mem_redundancyCandidates hk
    exact ⟨k, hmem, rfl, hfree, hcount, hholds⟩
  · intro hne state'
    have hwithout : (((s.without ids).trial m c.solver).run state').1.accepted = true := by
      obtain ⟨oldest, newer, hcons⟩ := List.exists_cons_of_ne_nil hne
      have hall : ids.filter (oldest.raw ≤ ·.raw) = ids := by
        rw [hcons] at hascending ⊢
        refine List.filter_eq_self.mpr (List.forall_mem_cons.mpr ⟨by simp, ?_⟩)
        intro id hid
        exact decide_eq_true (Nat.le_of_lt ((List.pairwise_cons.mp hascending).1 id hid))
      obtain ⟨k, -, -, hholds⟩ := heach oldest (hcons ▸ List.mem_cons_self ..)
      rw [hall] at hholds
      exact (hholds state').1
    refine ⟨hwithout, ?_⟩
    rw [(triedAlike_of_onlyActive (s.onlyActive_removing ids)).trial_eq]
    exact hwithout
  · intro newest hnewest
    obtain ⟨older, hlast⟩ := List.getLast?_eq_some_iff.mp hnewest
    obtain ⟨k, hk, rfl, hholds⟩ := heach newest (List.mem_of_getLast? hnewest)
    obtain ⟨hmem, -⟩ := hs.of_mem_redundancyCandidates hk
    refine ⟨k, hmem, rfl, ((hholds state).congr fun id => ?_).exists_meets⟩
    rw [hlast] at hascending ⊢
    have holder := (List.pairwise_append.mp hascending).2.2
    simp only [List.mem_filter, List.mem_append, List.mem_singleton, decide_eq_true_eq]
    constructor
    · rintro ⟨hid | rfl, hnewer⟩
      · have := holder id hid k.id (List.mem_singleton_self _)
        omega
      · rfl
    · rintro rfl
      exact ⟨Or.inr rfl, Nat.le_refl _⟩

/-- The same line three times to be horizontal. -/
def tripled : Sketch Float :=
  ((slanted.addConstraint (.horizontal ⟨2⟩)).2.addConstraint (.horizontal ⟨2⟩)).2

theorem redundancies_hold_together_tripled :
    let m := Minimizer.answering [1.0, 0.0, 5.0]
    ((tripled.redundancies m .standard).run ()).1.map (·.id) = [⟨1⟩, ⟨2⟩] ∧
    (((tripled.removing [⟨1⟩, ⟨2⟩]).trial m .standard).run ()).1.accepted = true ∧
    ∃ t : Sketch Float, t.outline = tripled.outline ∧ (t.without [⟨2⟩]).Meets .standard := by
  have hs : tripled.WellFormed := (wellFormed_slanted.addConstraint _).addConstraint _
  have hm := Minimizer.isDeterministic_answering [(1.0 : Float), 0.0, 5.0]
  have hfound : ((tripled.redundantAmong (.answering [1.0, 0.0, 5.0]) .standard []
      (tripled.redundancyCandidates .standard)).run ()).1.map (·.id) = [⟨2⟩, ⟨1⟩] := by
    decide +kernel
  -- from here on nothing is evaluated
  generalize Minimizer.answering [(1.0 : Float), 0.0, 5.0] = m at hm hfound ⊢
  obtain ⟨hascending, -, hrest, hnewest⟩ := redundancies_hold_together hs hm .standard ()
  have hids : ((tripled.redundancies m .standard).run ()).1.map (·.id) = [⟨1⟩, ⟨2⟩] := by
    have hperm := (tripled.redundancies_perm m .standard ()).map (·.id)
    rw [hfound] at hperm
    refine (hperm.trans (List.Perm.swap ..)).eq_of_pairwise ?_ hascending (by decide)
    intro a b _ _ hab hba
    exact absurd hab (Nat.lt_asymm hba)
  rw [hids] at hrest hnewest
  obtain ⟨-, -, -, t, houtline, hmeets, -⟩ := hnewest ⟨2⟩ rfl
  exact ⟨hids, (hrest nofun ()).2, t, houtline, hmeets⟩

end Sketch

end PlaneSketch
