import Mathlib.Data.List.Induction
import PlaneSketch.Proofs.Irreducible
import PlaneSketch.Proofs.Overlaps

/-!
# The list of conflicts

How the conflicts of a sketch are listed (`find_conflicts`). The members of each are valid active
constraints in ascending order, at least one, and the last one is the newest. No two conflicts have
the same members, and the list goes from the most certain to the least, then by members.
-/

namespace PlaneSketch

variable {α σ : Type}

/-! ### Ascending ids -/

/-- Every id is smaller than those behind it. -/
def IdsAscend (ids : List ConstraintId) : Prop := ids.Pairwise fun a b => a.raw < b.raw

theorem idsAscend_ascendingIds (ids : List ConstraintId) : IdsAscend (ascendingIds ids) :=
  (pairwise_ascending ConstraintId.lt_trans ConstraintId.eq_of_lt_eq_false ids).imp
    of_decide_eq_true

/-! ### The order of lists of ids -/

/-- The first difference decides, and a list comes before those that go on longer. -/
def IdsBefore : List ConstraintId → List ConstraintId → Prop :=
  List.Lex fun a b => a.raw < b.raw

theorem idsLe_iff (ids others : List ConstraintId) :
    idsLe ids others = true ↔ ids = others ∨ IdsBefore ids others := by
  induction ids generalizing others with
  | nil =>
    cases others with
    | nil => exact iff_of_true rfl (Or.inl rfl)
    | cons other more => exact iff_of_true rfl (Or.inr .nil)
  | cons id rest ih =>
    cases others with
    | nil => exact iff_of_false nofun (by rintro (h | h) <;> cases h)
    | cons other more =>
      simp only [idsLe, Bool.or_eq_true, Bool.and_eq_true, decide_eq_true_eq, ih]
      constructor
      · rintro (hlt | ⟨hsame, rfl | hbefore⟩)
        · exact Or.inr (.rel hlt)
        · exact Or.inl (congrArg (· :: rest) (congrArg ConstraintId.mk hsame))
        · obtain rfl : id = other := congrArg ConstraintId.mk hsame
          exact Or.inr (.cons hbefore)
      · rintro (hsame | hbefore)
        · obtain ⟨rfl, rfl⟩ := List.cons.inj hsame
          exact Or.inr ⟨rfl, Or.inl rfl⟩
        · cases hbefore with
          | rel hlt => exact Or.inl hlt
          | cons hrest => exact Or.inr ⟨rfl, Or.inr hrest⟩

theorem idsLe_trans {a b c : List ConstraintId} (hab : idsLe a b = true) (hbc : idsLe b c = true) :
    idsLe a c = true := by
  induction a generalizing b c with
  | nil => rfl
  | cons id rest ih =>
    cases b with
    | nil => cases hab
    | cons other more =>
      cases c with
      | nil => cases hbc
      | cons third last =>
        simp only [idsLe, Bool.or_eq_true, Bool.and_eq_true, decide_eq_true_eq] at hab hbc ⊢
        rcases hab with hab | ⟨hab, hmore⟩ <;> rcases hbc with hbc | ⟨hbc, hlast⟩
        · exact Or.inl (Nat.lt_trans hab hbc)
        · exact Or.inl (hbc ▸ hab)
        · exact Or.inl (hab ▸ hbc)
        · exact Or.inr ⟨hab.trans hbc, ih hmore hlast⟩

theorem idsLe_total (a b : List ConstraintId) : idsLe a b = true ∨ idsLe b a = true := by
  induction a generalizing b with
  | nil => exact Or.inl rfl
  | cons id rest ih =>
    cases b with
    | nil => exact Or.inr rfl
    | cons other more =>
      simp only [idsLe, Bool.or_eq_true, Bool.and_eq_true, decide_eq_true_eq]
      rcases Nat.lt_trichotomy id.raw other.raw with hlt | hsame | hgt
      · exact Or.inl (Or.inl hlt)
      · exact (ih more).imp (Or.inr ⟨hsame, ·⟩) (Or.inr ⟨hsame.symm, ·⟩)
      · exact Or.inr (Or.inl hgt)

namespace Conflict

variable {a b conflict : Conflict}

/-- In an ascending list the newest member is the last one. -/
theorem newest?_eq_getLast? (h : IdsAscend conflict.members) :
    conflict.newest? = conflict.members.getLast? := by
  obtain ⟨members, _, _, _, _, _, _⟩ := conflict
  unfold newest?
  dsimp only at h ⊢
  induction members using List.reverseRecOn with
  | nil => rfl
  | append_singleton rest last ih =>
    obtain ⟨hrest, -, hlast⟩ := List.pairwise_append.mp h
    rw [List.foldl_append, ih hrest, List.getLast?_concat]
    cases hbefore : rest.getLast? with
    | none => rfl
    | some other =>
      have hlt := hlast other (List.mem_of_getLast? hbefore) last (List.mem_singleton_self last)
      exact if_pos (Nat.le_of_lt hlt)

/-! ### Members -/

/-- The conflict has members, in ascending order, and all are valid active constraints of the
sketch. -/
structure IsListed [Scalar α] (s : Sketch α) (conflict : Conflict) : Prop where
  nonempty : conflict.members ≠ []
  ascending : IdsAscend conflict.members
  valid : conflict.members ⊆ s.validActive.map (·.id)

variable [Scalar α] {s : Sketch α} {active : List (Constraint α)} {tolerance : α}

/-- Conflicts are found with their members already in order. -/
def IsAscending (conflict : Conflict) : Prop := ∃ ids, conflict.members = ascendingIds ids

theorem isAscending_ofQuantity? [NumberText α] {q : Quantity}
    (h : ofQuantity? s active tolerance q = some conflict) : conflict.IsAscending := by
  obtain ⟨-, -, -, hmembers, -⟩ := of_ofQuantity? h
  exact ⟨_, hmembers⟩

theorem isAscending_withHeld? [NumberText α] {held : Sketch α} {k : Constraint α}
    (h : withHeld? s held active tolerance k = some conflict) : conflict.IsAscending := by
  obtain ⟨-, -, -, -, hmembers, -⟩ := of_withHeld? h
  exact ⟨_, hmembers⟩

theorem isAscending_ofCollapsedLine? {line : LineId}
    (h : ofCollapsedLine? s active tolerance line = some conflict) : conflict.IsAscending := by
  obtain ⟨_, -, _, -, -, -, _, _, -, rfl⟩ := of_ofCollapsedLine? h
  exact ⟨_, rfl⟩

theorem isAscending_ofCrossedLines (s : Sketch α) (active : List (Constraint α)) (tolerance : α)
    (parallel perpendicular : Constraint α) (k l : LineId) :
    (ofCrossedLines s active tolerance parallel perpendicular k l).IsAscending := by
  unfold ofCrossedLines
  dsimp only
  split <;> exact ⟨_, rfl⟩

theorem isAscending_ofLink? {axes : Axes} {link : AxisLink α}
    (h : ofLink? s axes link = some conflict) : conflict.IsAscending := by
  obtain ⟨_, -, h⟩ := Option.bind_eq_some_iff.mp h
  obtain ⟨_, -, h⟩ := Option.bind_eq_some_iff.mp h
  split at h
  next => cases h
  next =>
    cases h
    exact ⟨_, rfl⟩

theorem isAscending_of_mem_ruleConflicts [NumberText α] {c : DiagnosisConfig α}
    (h : conflict ∈ s.ruleConflicts c) : conflict.IsAscending := by
  rcases Sketch.ruleConflicts_cases h with htarget | ⟨known, hheld⟩ | hcollapse | haxes
  · obtain ⟨q, -, hq⟩ := List.mem_filterMap.mp htarget
    exact isAscending_ofQuantity? hq
  · obtain ⟨k, -, -, hheld⟩ := exists_withHeld? hheld
    exact isAscending_withHeld? hheld
  · rcases mem_byCollapse hcollapse with ⟨line, hfound⟩ | ⟨parallel, -, hfound⟩
    · exact isAscending_ofCollapsedLine? hfound
    · obtain ⟨_, _, _, _, _, -, -, -, -, rfl⟩ := mem_withPerpendicular hfound
      exact isAscending_ofCrossedLines ..
  · obtain ⟨link, -, hlink⟩ := List.mem_filterMap.mp haxes
    exact isAscending_ofLink? hlink

theorem members_ne_nil_of_mem_ruleConflicts [NumberText α] {c : DiagnosisConfig α}
    (h : conflict ∈ s.ruleConflicts c) : conflict.members ≠ [] := by
  rcases Sketch.ruleConflicts_cases h with htarget | ⟨known, hheld⟩ | hcollapse | haxes
  · obtain ⟨q, -, hq⟩ := List.mem_filterMap.mp htarget
    exact (ofQuantity?_members hq).2.1
  · obtain ⟨k, -, -, hheld⟩ := exists_withHeld? hheld
    exact List.ne_nil_of_mem (withHeld?_members hheld).2.1
  · obtain ⟨k, -, -, -, -, hmember, -⟩ := hasFreePair_of_collapse hcollapse
    exact List.ne_nil_of_mem hmember
  · obtain ⟨_, -, -, -, hmember, -⟩ := ofAxes_members haxes
    exact List.ne_nil_of_mem hmember

theorem isListed_of_mem_ruleConflicts [NumberText α] {c : DiagnosisConfig α}
    (h : conflict ∈ s.ruleConflicts c) : conflict.IsListed s := by
  obtain ⟨ids, hids⟩ := isAscending_of_mem_ruleConflicts h
  refine ⟨members_ne_nil_of_mem_ruleConflicts h, ?_, Sketch.members_subset_of_mem_ruleConflicts h⟩
  rw [hids]
  exact idsAscend_ascendingIds ids

/-! ### Members of what solving finds -/

/-- Where nothing to satisfy is feasible, narrowing down leaves something. -/
theorem shrink_ne_nil {m : Minimizer α σ} {c : DiagnosisConfig α} (hnone : Feasible s m c [])
    {candidates core : List ConstraintId} (h : core ≠ []) (state : σ) :
    ((shrink s m c candidates core).run state).1 ≠ [] := by
  induction candidates generalizing core state with
  | nil => exact h
  | cons id rest ih =>
    rw [run_shrink_cons]
    refine ih ?_ _
    split
    next => exact h
    next hinfeasible =>
      intro hempty
      rw [hempty] at hinfeasible
      exact hinfeasible (hnone state)

theorem isListed_of_bySolving? {s : Sketch Float} {m : Minimizer Float σ}
    {c : DiagnosisConfig Float} {state : σ} (haggregate : 0.0 < c.solver.aggregateTolerance)
    (hmax : 0.0 < c.solver.maxErrorTolerance) (hvalid : ∀ k ∈ s.active, k.isValid s = true)
    (h : ((bySolving? s s.validActive m c).run state).1 = some conflict) :
    conflict.IsListed s := by
  have hnone : Feasible s m c [] := feasible_nil haggregate hmax
  obtain ⟨ids, hids, hmembers⟩ : ∃ ids, ids ≠ [] ∧ conflict.members = ascendingIds ids := by
    obtain ⟨hsome, rfl | ⟨before, state', hinfeasible, rfl⟩⟩ := of_bySolving? h
    · exact ⟨_, hsome, rfl⟩
    · refine ⟨_, shrink_ne_nil hnone ?_ state', rfl⟩
      intro hempty
      rw [hempty] at hinfeasible
      exact absurd (hnone before) (Bool.eq_false_iff.mp hinfeasible)
  refine ⟨?_, ?_, ?_⟩
  · obtain ⟨id, hid⟩ := List.exists_mem_of_ne_nil ids hids
    rw [hmembers]
    exact List.ne_nil_of_mem ((mem_ascendingIds_iff ..).mpr hid)
  · rw [hmembers]
    exact idsAscend_ascendingIds ids
  · have hall : s.validActive = s.active := by
      rw [Sketch.validActive_eq_filter, List.filter_eq_self]
      exact hvalid
    rw [hall]
    exact members_subset_of_bySolving? h

/-! ### The order of conflicts -/

theorem rank_eq_iff (a b : Severity) : a.rank = b.rank ↔ a = b := by
  cases a <;> cases b <;> decide

theorem precedes_iff (a b : Conflict) :
    a.precedes b = true ↔ a.severity.rank < b.severity.rank ∨
      a.severity = b.severity ∧ idsLe a.members b.members = true := by
  unfold precedes
  simp only [Bool.or_eq_true, Bool.and_eq_true, decide_eq_true_eq, rank_eq_iff]

theorem precedes_trans (a b c : Conflict) (hab : a.precedes b = true) (hbc : b.precedes c = true) :
    a.precedes c = true := by
  rw [precedes_iff] at hab hbc ⊢
  rcases hab with hab | ⟨hab, hids⟩ <;> rcases hbc with hbc | ⟨hbc, hids'⟩
  · exact Or.inl (Nat.lt_trans hab hbc)
  · exact Or.inl (hbc ▸ hab)
  · exact Or.inl (hab ▸ hbc)
  · exact Or.inr ⟨hab.trans hbc, idsLe_trans hids hids'⟩

theorem precedes_total (a b : Conflict) : (a.precedes b || b.precedes a) = true := by
  rw [Bool.or_eq_true, precedes_iff, precedes_iff]
  rcases Nat.lt_trichotomy a.severity.rank b.severity.rank with hlt | hsame | hgt
  · exact Or.inl (Or.inl hlt)
  · have hseverity := (rank_eq_iff ..).mp hsame
    exact (idsLe_total a.members b.members).imp (Or.inr ⟨hseverity, ·⟩)
      (Or.inr ⟨hseverity.symm, ·⟩)
  · exact Or.inr (Or.inl hgt)

end Conflict

namespace Sketch

open Conflict

variable [Scalar α] [NumberText α]

theorem conflicts_pairwise_precedes (s : Sketch α) (m : Minimizer α σ) (c : DiagnosisConfig α)
    (numeric : Bool) (state : σ) :
    ((s.conflicts m c numeric).run state).1.Pairwise (precedes · · = true) := by
  unfold conflicts
  dsimp only
  split
  · rw [run_bind_fst]
    exact List.pairwise_mergeSort precedes_trans precedes_total _
  · exact List.pairwise_mergeSort precedes_trans precedes_total _

/-- No two conflicts have the same members. -/
theorem conflicts_pairwise_members (s : Sketch α) (m : Minimizer α σ) (c : DiagnosisConfig α)
    (numeric : Bool) (state : σ) :
    ((s.conflicts m c numeric).run state).1.Pairwise fun a b =>
      ¬∀ id, id ∈ a.members ↔ id ∈ b.members := by
  obtain ⟨_, -, kept, hperm, hkeeps⟩ := s.exists_keeps_conflicts m c numeric state
  refine (hperm.pairwise_iff ?_).mpr (hkeeps.uncovered.imp ?_)
  · intro a b hne hsame
    exact hne fun id => (hsame id).symm
  · intro a b huncovered hsame
    exact huncovered fun id hid => (hsame id).mp hid

end Sketch

/-- The conflicts of a sketch are a well-formed list. -/
theorem Sketch.conflicts_listed (s : Sketch Float) (m : Minimizer Float σ)
    {c : DiagnosisConfig Float} (haggregate : 0.0 < c.solver.aggregateTolerance)
    (hmax : 0.0 < c.solver.maxErrorTolerance) {numeric : Bool}
    (hvalid : numeric = true → ∀ k ∈ s.active, k.isValid s = true) (state : σ) :
    let reported := ((s.conflicts m c numeric).run state).1
    (∀ conflict ∈ reported, conflict.IsListed s ∧
      conflict.newest? = conflict.members.getLast?) ∧
    (reported.Pairwise fun a b => ¬∀ id, id ∈ a.members ↔ id ∈ b.members) ∧
    reported.Pairwise fun a b => a.severity.rank < b.severity.rank ∨
      a.severity = b.severity ∧ IdsBefore a.members b.members := by
  intro reported
  have hdistinct := s.conflicts_pairwise_members m c numeric state
  refine ⟨?_, hdistinct, ?_⟩
  · intro conflict hconflict
    have hlisted : conflict.IsListed s := by
      rcases mem_conflicts_cases hconflict with hrule | ⟨htried, hsolved⟩
      · exact Conflict.isListed_of_mem_ruleConflicts hrule
      · exact Conflict.isListed_of_bySolving? haggregate hmax (hvalid htried) hsolved
    exact ⟨hlisted, Conflict.newest?_eq_getLast? hlisted.ascending⟩
  · refine ((s.conflicts_pairwise_precedes m c numeric state).and hdistinct).imp ?_
    rintro a b ⟨hprecedes, hne⟩
    rw [Conflict.precedes_iff, idsLe_iff] at hprecedes
    refine hprecedes.imp_right (And.imp_right fun hids => hids.resolve_left fun hsame => hne ?_)
    intro id
    rw [hsame]

theorem Sketch.conflicts_listed_overstretched :
    let reported := ((overstretched.conflicts Conflict.twoOfThree .standard true).run ()).1
    (0.0 : Float) < (DiagnosisConfig.standard : DiagnosisConfig Float).solver.aggregateTolerance ∧
    (0.0 : Float) < (DiagnosisConfig.standard : DiagnosisConfig Float).solver.maxErrorTolerance ∧
    (∀ k ∈ overstretched.active, k.isValid overstretched = true) ∧
    ∃ conflict ∈ reported, conflict.IsListed overstretched ∧ conflict.newest? = some ⟨2⟩ := by
  intro reported
  have haggregate : (0.0 : Float) <
      (DiagnosisConfig.standard : DiagnosisConfig Float).solver.aggregateTolerance := by
    decide +kernel
  have hmax : (0.0 : Float) <
      (DiagnosisConfig.standard : DiagnosisConfig Float).solver.maxErrorTolerance := by
    decide +kernel
  have hvalid : ∀ k ∈ overstretched.active, k.isValid overstretched = true := by decide +kernel
  have hmembers : reported.map (·.members) = [[⟨0⟩, ⟨1⟩, ⟨2⟩]] := by decide +kernel
  obtain ⟨conflict, hconflict, hthree⟩ : ∃ conflict ∈ reported,
      conflict.members = [⟨0⟩, ⟨1⟩, ⟨2⟩] := by
    rw [← List.mem_map, hmembers]
    decide
  obtain ⟨hlisted, hnewest⟩ := (conflicts_listed overstretched Conflict.twoOfThree haggregate hmax
    (fun _ => hvalid) ()).1 conflict hconflict
  rw [hthree] at hnewest
  exact ⟨haggregate, hmax, hvalid, conflict, hconflict, hlisted, hnewest⟩

end PlaneSketch
