import PlaneSketch.Diagnosis.Conflict
import PlaneSketch.Proofs.Trials

/-!
# Conflicts

Where the conflicts of a sketch come from (`find_conflicts`): which constraints each rule looks at,
which of them are members, and how certain the conflicts of a rule are. All critical ones come from
a rule on targets, held points or collapse; axes and solving find none.
-/

namespace PlaneSketch

variable {α σ : Type}

/-! ### Members -/

theorem mem_insertAscending_iff {β : Type} {lt : β → β → Bool}
    (hlt : ∀ a b, lt a b = false → lt b a = false → a = b) (a b : β) (bs : List β) :
    a ∈ insertAscending lt b bs ↔ a = b ∨ a ∈ bs := by
  induction bs with
  | nil => simp [insertAscending]
  | cons other rest ih =>
    unfold insertAscending
    split
    next => simp
    next hbefore =>
      split
      next => simp only [List.mem_cons, ih, or_left_comm]
      next hafter =>
        have hsame := hlt b other (Bool.not_eq_true _ ▸ hbefore) (Bool.not_eq_true _ ▸ hafter)
        simp [hsame]

theorem ConstraintId.eq_of_lt_eq_false (a b : ConstraintId) (hab : a.lt b = false)
    (hba : b.lt a = false) : a = b := by
  obtain ⟨a⟩ := a
  obtain ⟨b⟩ := b
  simp only [ConstraintId.lt, decide_eq_false_iff_not] at hab hba
  rw [ConstraintId.mk.injEq]
  omega

theorem ConstraintId.lt_irrefl (a : ConstraintId) : a.lt a = false :=
  decide_eq_false (Nat.lt_irrefl a.raw)

theorem ConstraintId.lt_trans (a b c : ConstraintId) (hab : a.lt b = true) (hbc : b.lt c = true) :
    a.lt c = true :=
  decide_eq_true (Nat.lt_trans (of_decide_eq_true hab) (of_decide_eq_true hbc))

theorem mem_ascending_iff {β : Type} {lt : β → β → Bool}
    (hlt : ∀ a b, lt a b = false → lt b a = false → a = b) (b : β) (bs : List β) :
    b ∈ ascending lt bs ↔ b ∈ bs := by
  unfold ascending
  induction bs with
  | nil => rfl
  | cons first rest ih =>
    rw [List.foldr_cons, mem_insertAscending_iff hlt, List.mem_cons]
    exact or_congr_right ih

theorem pairwise_insertAscending {β : Type} {lt : β → β → Bool}
    (htrans : ∀ a b c, lt a b = true → lt b c = true → lt a c = true)
    (hlt : ∀ a b, lt a b = false → lt b a = false → a = b) {bs : List β}
    (h : bs.Pairwise (lt · · = true)) (b : β) :
    (insertAscending lt b bs).Pairwise (lt · · = true) := by
  induction bs with
  | nil => exact List.pairwise_singleton ..
  | cons first rest ih =>
    obtain ⟨hfirst, hrest⟩ := List.pairwise_cons.mp h
    unfold insertAscending
    split
    next hbefore =>
      refine List.pairwise_cons.mpr ⟨List.forall_mem_cons.mpr ⟨hbefore, ?_⟩, h⟩
      intro other hother
      exact htrans _ _ _ hbefore (hfirst other hother)
    next =>
      split
      next hafter =>
        refine List.pairwise_cons.mpr ⟨?_, ih hrest⟩
        intro other hother
        rcases (mem_insertAscending_iff hlt ..).mp hother with rfl | hin
        · exact hafter
        · exact hfirst other hin
      next => exact h

theorem pairwise_ascending {β : Type} {lt : β → β → Bool}
    (htrans : ∀ a b c, lt a b = true → lt b c = true → lt a c = true)
    (hlt : ∀ a b, lt a b = false → lt b a = false → a = b) (bs : List β) :
    (ascending lt bs).Pairwise (lt · · = true) := by
  unfold ascending
  induction bs with
  | nil => exact List.Pairwise.nil
  | cons b rest ih => exact pairwise_insertAscending htrans hlt ih b

theorem mem_ascendingIds_iff (id : ConstraintId) (ids : List ConstraintId) :
    id ∈ ascendingIds ids ↔ id ∈ ids :=
  mem_ascending_iff ConstraintId.eq_of_lt_eq_false id ids

namespace Conflict

theorem mem_foldl_keep {known more : List Conflict} {conflict : Conflict}
    (h : conflict ∈ more.foldl keep known) : conflict ∈ known ∨ conflict ∈ more := by
  induction more generalizing known with
  | nil => exact Or.inl h
  | cons first rest ih =>
    rcases ih h with hkept | hrest
    · unfold keep at hkept
      split at hkept
      next => exact Or.inl hkept
      next =>
        rcases List.mem_append.mp hkept with hknown | hfirst
        · exact Or.inl hknown
        · exact Or.inr (List.mem_singleton.mp hfirst ▸ List.mem_cons_self ..)
    · exact Or.inr (List.mem_cons_of_mem _ hrest)

theorem mem_foldl_keep_of_mem {known : List Conflict} (more : List Conflict)
    {conflict : Conflict} (h : conflict ∈ known) : conflict ∈ more.foldl keep known := by
  induction more generalizing known with
  | nil => exact h
  | cons first rest ih =>
    refine ih ?_
    unfold keep
    split
    · exact h
    · exact List.mem_append_left _ h

/-! ### Rules -/

theorem not_mem_references_of_isStraight {r : Requirement α} (h : r.isStraight = true)
    (c : CurveId) : c.toRef ∉ r.references := by
  intro hc
  have hstraight := List.all_eq_true.mp h _ hc
  cases c <;> cases hstraight

variable [Scalar α] {s : Sketch α} {active : List (Constraint α)} {tolerance : α}
  {conflict : Conflict}

theorem mem_targeting_iff {q : Quantity} {pair : Constraint α × Target α} :
    pair ∈ targeting s active q ↔
      pair.1 ∈ active ∧ s.target? pair.1.requirement = some (q, pair.2) := by
  unfold targeting
  rw [List.mem_filterMap]
  constructor
  · rintro ⟨k, hk, hpair⟩
    split at hpair
    next other target htarget =>
      split at hpair
      next hother =>
        cases hpair
        exact ⟨hk, hother ▸ htarget⟩
      next => cases hpair
    next => cases hpair
  · rintro ⟨hk, htarget⟩
    refine ⟨pair.1, hk, ?_⟩
    simp only [htarget, if_true]

/-- A conflict about a quantity has all constraints with a target for it as its members. It is fixed
by taking the newest one out if the targets of the others agree. -/
theorem of_ofQuantity? [NumberText α] {q : Quantity}
    (h : ofQuantity? s active tolerance q = some conflict) :
    let targets := targeting s active q
    allAgree tolerance (targets.map (·.2)) = false ∧ conflict.subject = .quantity q ∧
      conflict.severity = .critical ∧ conflict.members = ascendingIds (targets.map (·.1.id)) ∧
      ∃ newest, conflict.members.getLast? = some newest ∧
        conflict.autoFixable =
          allAgree tolerance ((targets.filter (·.1.id ≠ newest)).map (·.2)) := by
  unfold ofQuantity? at h
  dsimp only at h ⊢
  split at h
  next => cases h
  next hdisagree =>
    obtain ⟨newest, hnewest, hconflict⟩ := Option.bind_eq_some_iff.mp h
    cases hconflict
    exact ⟨Bool.not_eq_true _ ▸ hdisagree, rfl, rfl, rfl, newest, hnewest, rfl⟩

/-- A conflict of targets has all constraints with a target for a quantity as its members. -/
theorem exists_of_mem_betweenTargets [NumberText α]
    (h : conflict ∈ betweenTargets s active tolerance) :
    ∃ q, allAgree tolerance ((targeting s active q).map (·.2)) = false ∧
      ∀ pair ∈ targeting s active q, pair.1.id ∈ conflict.members := by
  obtain ⟨q, -, hq⟩ := List.mem_filterMap.mp h
  obtain ⟨hdisagree, -, -, hmembers, -⟩ := of_ofQuantity? hq
  refine ⟨q, hdisagree, ?_⟩
  intro pair hpair
  rw [hmembers, mem_ascendingIds_iff]
  exact List.mem_map_of_mem hpair

/-- A conflict with held points is about a constraint on them that has an error there. Its members
are this one and the ones that hold the points. -/
theorem of_withHeld? [NumberText α] {held : Sketch α} {k : Constraint α}
    (h : withHeld? s held active tolerance k = some conflict) :
    let points := s.touchedPoints k.requirement
    let holders := active.filter (·.requirement.fixesOneOf points)
    k.requirement.isStraight = true ∧ points.all s.pins.holds = true ∧
      ¬held.errorOf k.requirement ≤ tolerance ∧ conflict.subject = .held k.id ∧
      conflict.members = ascendingIds (holders.map (·.id) ++ [k.id]) ∧
      conflict.autoFixable = decide (conflict.members.getLast? = some k.id) := by
  unfold withHeld? at h
  dsimp only at h ⊢
  split at h
  next => cases h
  next hpasses =>
    cases h
    simp only [Bool.or_eq_true, Bool.not_eq_true', not_or, Bool.not_eq_false,
      decide_eq_true_eq] at hpasses
    obtain ⟨⟨⟨hstraight, -⟩, hheld⟩, herror⟩ := hpasses
    exact ⟨hstraight, hheld, herror, rfl, rfl, rfl⟩

/-- A conflict with held points is about a constraint in no certain conflict before it. -/
theorem exists_withHeld? [NumberText α] {known : List Conflict}
    (h : conflict ∈ withHeldPoints s active tolerance known) :
    ∃ k ∈ active, (∀ other ∈ known, other.severity = .critical → k.id ∉ other.members) ∧
      withHeld? s (s.applyPins s.pins) active tolerance k = some conflict := by
  unfold withHeldPoints at h
  dsimp only at h
  split at h
  next => cases h
  next =>
    obtain ⟨k, hk, hconflict⟩ := List.mem_filterMap.mp h
    obtain ⟨hactive, hexplained⟩ := List.mem_filter.mp hk
    refine ⟨k, hactive, ?_, hconflict⟩
    intro other hother hcritical hmember
    rw [Bool.not_eq_true', List.any_eq_false] at hexplained
    refine hexplained other hother ?_
    rw [Bool.and_eq_true]
    exact ⟨decide_eq_true hcritical, decide_eq_true hmember⟩

/-- A conflict with held points has a member on them that has an error there. -/
theorem exists_of_mem_withHeldPoints [NumberText α] {known : List Conflict}
    (h : conflict ∈ withHeldPoints s active tolerance known) :
    ∃ k ∈ active, k.id ∈ conflict.members ∧ k.requirement.isStraight = true ∧
      (s.touchedPoints k.requirement).all s.pins.holds = true ∧
      ¬(s.applyPins s.pins).errorOf k.requirement ≤ tolerance := by
  obtain ⟨k, hk, -, hconflict⟩ := exists_withHeld? h
  obtain ⟨hstraight, hheld, herror, -, hmembers, -⟩ := of_withHeld? hconflict
  refine ⟨k, hk, ?_, hstraight, hheld, herror⟩
  rw [hmembers, mem_ascendingIds_iff]
  exact List.mem_append_right _ (List.mem_singleton_self _)

theorem target?_of_mem_lengthening {line : LineId} {k : Constraint α}
    (h : k ∈ lengthening s active tolerance line) :
    k ∈ active ∧ ∃ l value, s.line? line = some l ∧ tolerance < value ∧
      s.target? k.requirement = some (.separation (orderedPoints l.start l.stop).1
        (orderedPoints l.start l.stop).2, .scalar value) := by
  unfold lengthening at h
  cases hline : s.line? line with
  | none =>
    rw [hline] at h
    cases h
  | some l =>
    rw [hline] at h
    obtain ⟨hk, hasks⟩ := List.mem_filter.mp h
    refine ⟨hk, l, ?_⟩
    split at hasks
    next other value hrequirement =>
      simp only [Bool.and_eq_true, decide_eq_true_eq] at hasks
      obtain ⟨rfl, hlong⟩ := hasks
      refine ⟨value, rfl, hlong, ?_⟩
      rw [hrequirement]
      simp [Sketch.target?, hline]
    next p q value hrequirement =>
      simp only [Bool.and_eq_true, decide_eq_true_eq] at hasks
      refine ⟨value, rfl, hasks.2, ?_⟩
      rw [hrequirement, ← hasks.1]
      rfl
    next => cases hasks

/-- A collapsed line is found between a horizontal and a vertical constraint, with all constraints
that ask the line for a length; there is one if the conflict is critical. -/
theorem of_ofCollapsedLine? {line : LineId}
    (h : ofCollapsedLine? s active tolerance line = some conflict) :
    let lengths := lengthening s active tolerance line
    ∃ level ∈ active, ∃ upright ∈ active,
      level.requirement = .horizontal line ∧ upright.requirement = .vertical line ∧
      ∃ severity explanation, (severity = .critical → lengths ≠ []) ∧
        conflict = collapse s (.collapsedLine line)
          (ascendingIds (level.id :: upright.id :: lengths.map (·.id))) level.id upright.id severity
          explanation := by
  unfold ofCollapsedLine? at h
  obtain ⟨level, hlevel, h⟩ := Option.bind_eq_some_iff.mp h
  obtain ⟨upright, hupright, h⟩ := Option.bind_eq_some_iff.mp h
  have hhorizontal : level.requirement = .horizontal line := by
    have hfound := List.find?_some hlevel
    split at hfound
    next l hl => rw [hl, of_decide_eq_true hfound]
    next => cases hfound
  have hvertical : upright.requirement = .vertical line := by
    have hfound := List.find?_some hupright
    split at hfound
    next l hl => rw [hl, of_decide_eq_true hfound]
    next => cases hfound
  refine ⟨level, List.mem_of_find?_eq_some hlevel, upright, List.mem_of_find?_eq_some hupright,
    hhorizontal, hvertical, ?_⟩
  dsimp only at h
  split at h
  next =>
    cases h
    exact ⟨.high, _, nofun, rfl⟩
  next hasked =>
    cases h
    exact ⟨.critical, _, fun _ hnone => hasked (List.isEmpty_iff.mpr hnone), rfl⟩

/-- The members of a conflict of a collapsed line are a horizontal and a vertical constraint, and
all constraints that ask the line for a length; there is one if the conflict is critical. -/
theorem ofCollapsedLine?_members {line : LineId}
    (h : ofCollapsedLine? s active tolerance line = some conflict) :
    ∃ level ∈ active, ∃ upright ∈ active,
      level.requirement = .horizontal line ∧ upright.requirement = .vertical line ∧
      (∀ id, id ∈ conflict.members ↔ id = level.id ∨ id = upright.id ∨
        ∃ k ∈ lengthening s active tolerance line, k.id = id) ∧
      (conflict.severity = .critical → lengthening s active tolerance line ≠ []) := by
  obtain ⟨level, hlevel, upright, hupright, hhorizontal, hvertical, _, _, hcritical, rfl⟩ :=
    of_ofCollapsedLine? h
  refine ⟨level, hlevel, upright, hupright, hhorizontal, hvertical, ?_, hcritical⟩
  intro id
  simp only [collapse, mem_ascendingIds_iff, List.mem_cons, List.mem_map]

theorem exists_of_ofCollapsedLine? {line : LineId}
    (h : ofCollapsedLine? s active tolerance line = some conflict) :
    ∃ level ∈ active, ∃ upright ∈ active,
      (level.requirement = .horizontal line ∧ level.id ∈ conflict.members) ∧
      (upright.requirement = .vertical line ∧ upright.id ∈ conflict.members) ∧
      (∀ k ∈ lengthening s active tolerance line, k.id ∈ conflict.members) ∧
      (conflict.severity = .critical → lengthening s active tolerance line ≠ []) := by
  obtain ⟨level, hlevel, upright, hupright, hhorizontal, hvertical, hmembers, hcritical⟩ :=
    ofCollapsedLine?_members h
  refine ⟨level, hlevel, upright, hupright, ⟨hhorizontal, (hmembers _).mpr (Or.inl rfl)⟩,
    ⟨hvertical, (hmembers _).mpr (Or.inr (Or.inl rfl))⟩, ?_, hcritical⟩
  intro k hk
  exact (hmembers _).mpr (Or.inr (Or.inr ⟨k, hk, rfl⟩))

/-- A conflict of crossed lines is about a parallel and a perpendicular constraint on them. -/
theorem mem_withPerpendicular {parallel : Constraint α}
    (h : conflict ∈ withPerpendicular s active tolerance parallel) :
    ∃ k l m n, ∃ perpendicular ∈ active, orderedLines m n = orderedLines k l ∧
      parallel.requirement = .parallel k l ∧ perpendicular.requirement = .perpendicular m n ∧
      conflict = ofCrossedLines s active tolerance parallel perpendicular k l := by
  unfold withPerpendicular at h
  split at h
  next k l hparallel =>
    obtain ⟨perpendicular, hactive, hconflict⟩ := List.mem_filterMap.mp h
    split at hconflict
    next m n hperpendicular =>
      split at hconflict
      next hpair =>
        cases hconflict
        exact ⟨k, l, m, n, perpendicular, hactive, hpair, hparallel, hperpendicular, rfl⟩
      next => cases hconflict
    next => cases hconflict
  next => cases h

/-- The members of a conflict of crossed lines are both constraints on them, and maybe some that ask
the lines for a length. -/
theorem ofCrossedLines_members (s : Sketch α) (active : List (Constraint α)) (tolerance : α)
    (parallel perpendicular : Constraint α) (k l : LineId) :
    let members := (ofCrossedLines s active tolerance parallel perpendicular k l).members
    parallel.id ∈ members ∧ perpendicular.id ∈ members ∧
      ∀ id ∈ members, id = parallel.id ∨ id = perpendicular.id ∨
        ∃ line, ∃ other ∈ lengthening s active tolerance line, other.id = id := by
  unfold ofCrossedLines
  dsimp only
  split
  · simp only [collapse, mem_ascendingIds_iff, List.mem_cons, List.not_mem_nil, or_false, true_or,
      or_true, true_and]
    rintro id (hid | hid)
    · exact Or.inl hid
    · exact Or.inr (Or.inl hid)
  · simp only [collapse, mem_ascendingIds_iff, List.mem_append, List.mem_cons, List.not_mem_nil,
      or_false, true_or, or_true, true_and, List.map_append, List.mem_map]
    rintro id ((hid | hid) | hlong | hlong)
    · exact Or.inl hid
    · exact Or.inr (Or.inl hid)
    · exact Or.inr (Or.inr ⟨k, hlong⟩)
    · exact Or.inr (Or.inr ⟨l, hlong⟩)

theorem exists_of_mem_withPerpendicular {parallel : Constraint α}
    (h : conflict ∈ withPerpendicular s active tolerance parallel) :
    ∃ k l m n, ∃ perpendicular ∈ active, orderedLines m n = orderedLines k l ∧
      (parallel.requirement = .parallel k l ∧ parallel.id ∈ conflict.members) ∧
      (perpendicular.requirement = .perpendicular m n ∧ perpendicular.id ∈ conflict.members) := by
  obtain ⟨k, l, m, n, perpendicular, hactive, hpair, hparallel, hperpendicular, rfl⟩ :=
    mem_withPerpendicular h
  obtain ⟨hfirst, hsecond, -⟩ :=
    ofCrossedLines_members s active tolerance parallel perpendicular k l
  exact ⟨k, l, m, n, perpendicular, hactive, hpair, ⟨hparallel, hfirst⟩, hperpendicular, hsecond⟩

theorem of_mem_ofAxes (h : conflict ∈ ofAxes s active) :
    conflict.severity = .high ∧ conflict.autoFixable = false ∧
      ∃ id, conflict.subject = .axes id := by
  obtain ⟨link, -, hlink⟩ := List.mem_filterMap.mp h
  obtain ⟨_, -, hlink⟩ := Option.bind_eq_some_iff.mp hlink
  obtain ⟨_, -, hlink⟩ := Option.bind_eq_some_iff.mp hlink
  split at hlink <;> cases hlink
  exact ⟨rfl, rfl, link.id, rfl⟩

/-- What solving finds is made of the constraints that a trial leaves unsatisfied, or of those that
are left when the ones connected with these cannot be satisfied and are narrowed down. -/
theorem of_bySolving? {m : Minimizer α σ} {c : DiagnosisConfig α} {state : σ}
    (h : ((bySolving? s active m c).run state).1 = some conflict) :
    let ids := unsatisfied active c.solver.maxErrorTolerance ((s.trial m c.solver).run state).1
    let connected := connectedTo s active ids
    ids ≠ [] ∧ (conflict = ofUnsolved s ids false ∨
      ∃ before state', ((isFeasible s m c connected).run before).1 = false ∧
        conflict = ofUnsolved s ((shrink s m c connected connected).run state').1 true) := by
  unfold bySolving? at h
  rw [run_bind] at h
  dsimp only at h ⊢
  split at h
  · cases h
  split at h
  · cases h
  next hsome =>
    refine ⟨fun hnone => hsome (List.isEmpty_iff.mpr hnone), ?_⟩
    split at h
    · cases h
      exact Or.inl rfl
    split at h
    · cases h
      exact Or.inl rfl
    rw [run_bind] at h
    split at h
    · cases h
    next hinfeasible =>
      rw [run_bind] at h
      cases h
      exact Or.inr ⟨_, _, Bool.not_eq_true _ ▸ hinfeasible, rfl⟩

theorem bySolving?_cases {m : Minimizer α σ} {c : DiagnosisConfig α} {state : σ}
    (h : ((bySolving? s active m c).run state).1 = some conflict) :
    let ids := unsatisfied active c.solver.maxErrorTolerance ((s.trial m c.solver).run state).1
    let connected := connectedTo s active ids
    conflict = ofUnsolved s ids false ∨
      ∃ before state', ((isFeasible s m c connected).run before).1 = false ∧
        conflict = ofUnsolved s ((shrink s m c connected connected).run state').1 true :=
  (of_bySolving? h).2

theorem severity_of_bySolving? {m : Minimizer α σ} {c : DiagnosisConfig α} {state : σ}
    (h : ((bySolving? s active m c).run state).1 = some conflict) : conflict.severity = .high := by
  rcases bySolving?_cases h with rfl | ⟨_, _, -, rfl⟩ <;> rfl

end Conflict

namespace Sketch

variable [Scalar α] [NumberText α] {s : Sketch α} {c : DiagnosisConfig α} {conflict : Conflict}

theorem ruleConflicts_cases (h : conflict ∈ s.ruleConflicts c) :
    conflict ∈ Conflict.betweenTargets s s.validActive c.redundancyTolerance ∨
    (∃ known, conflict ∈
      Conflict.withHeldPoints s s.validActive c.solver.maxErrorTolerance known) ∨
    conflict ∈ Conflict.byCollapse s s.validActive c.redundancyTolerance ∨
    conflict ∈ Conflict.ofAxes s s.validActive := by
  rcases Conflict.mem_foldl_keep h with h | haxes
  · rcases Conflict.mem_foldl_keep h with h | hcollapse
    · rcases Conflict.mem_foldl_keep h with h | hheld
      · rcases Conflict.mem_foldl_keep h with hnone | htargets
        · cases hnone
        · exact Or.inl htargets
      · exact Or.inr (Or.inl ⟨_, hheld⟩)
    · exact Or.inr (Or.inr (Or.inl hcollapse))
  · exact Or.inr (Or.inr (Or.inr haxes))

theorem mem_conflicts_cases {m : Minimizer α σ} {numeric : Bool} {state : σ}
    (h : conflict ∈ ((s.conflicts m c numeric).run state).1) :
    conflict ∈ s.ruleConflicts c ∨
      numeric = true ∧
        ((Conflict.bySolving? s s.validActive m c).run state).1 = some conflict := by
  unfold conflicts at h
  dsimp only at h
  split at h
  next htried =>
    rw [run_bind] at h
    rcases Conflict.mem_foldl_keep (List.mem_mergeSort.mp h) with hknown | hfound
    · exact Or.inl hknown
    · exact Or.inr ⟨(Bool.and_eq_true_iff.mp htried).1, Option.mem_toList.mp hfound⟩
  next => exact Or.inl (List.mem_mergeSort.mp h)

theorem mem_ruleConflicts_of_critical {m : Minimizer α σ} {numeric : Bool} {state : σ}
    (h : conflict ∈ ((s.conflicts m c numeric).run state).1)
    (hcritical : conflict.severity = .critical) : conflict ∈ s.ruleConflicts c := by
  rcases mem_conflicts_cases h with hknown | ⟨-, hfound⟩
  · exact hknown
  · rw [Conflict.severity_of_bySolving? hfound] at hcritical
    cases hcritical

end Sketch

end PlaneSketch
