import PlaneSketch.Proofs.Members

/-!
# Overlapping conflicts

A conflict is left out when one that was found before it has no other members (`push`). A smaller
one that is found later does not take a larger one back, so what is reported depends on the order in
which the rules find it. The order saves all cases but two: a constraint that holds a point
elsewhere than it is held comes after older constraints on that point, and what solving finds comes
last.
-/

namespace PlaneSketch

variable {α σ : Type}

namespace Conflict

/-! ### Kept conflicts -/

/-- What is kept of some conflicts: none is covered by an earlier one, and every conflict is covered
by one that is kept. -/
structure Keeps (found kept : List Conflict) : Prop where
  sublist : kept.Sublist found
  uncovered : kept.Pairwise fun earlier later => ¬earlier.members ⊆ later.members
  covers : ∀ conflict ∈ found, ∃ other ∈ kept, other.members ⊆ conflict.members

theorem keep_cases (known : List Conflict) (conflict : Conflict) :
    (keep known conflict = known ∧ ∃ other ∈ known, other.members ⊆ conflict.members) ∨
    (keep known conflict = known ++ [conflict] ∧
      ∀ other ∈ known, ¬other.members ⊆ conflict.members) := by
  unfold keep
  split
  next hcovered =>
    obtain ⟨other, hother, hall⟩ := List.any_eq_true.mp hcovered
    refine Or.inl ⟨rfl, other, hother, fun id hid => ?_⟩
    exact of_decide_eq_true (List.all_eq_true.mp hall id hid)
  next hnew =>
    refine Or.inr ⟨rfl, fun other hother hsubset => hnew ?_⟩
    refine List.any_eq_true.mpr ⟨other, hother, List.all_eq_true.mpr fun id hid => ?_⟩
    exact decide_eq_true (hsubset hid)

theorem Keeps.step {found kept : List Conflict} (h : Keeps found kept) (conflict : Conflict) :
    Keeps (found ++ [conflict]) (keep kept conflict) := by
  rcases keep_cases kept conflict with ⟨hkeep, hcovered⟩ | ⟨hkeep, hnew⟩
  · rw [hkeep]
    refine ⟨h.sublist.trans (List.sublist_append_left ..), h.uncovered, ?_⟩
    intro other hother
    rcases List.mem_append.mp hother with hfound | hlast
    · exact h.covers other hfound
    · rwa [List.mem_singleton.mp hlast]
  · rw [hkeep]
    refine ⟨h.sublist.append (List.Sublist.refl _), ?_, ?_⟩
    · refine List.pairwise_append.mpr ⟨h.uncovered, List.pairwise_singleton .., ?_⟩
      intro earlier hearlier later hlater
      rw [List.mem_singleton.mp hlater]
      exact hnew earlier hearlier
    · intro other hother
      rcases List.mem_append.mp hother with hfound | hlast
      · obtain ⟨small, hsmall, hsubset⟩ := h.covers other hfound
        exact ⟨small, List.mem_append_left _ hsmall, hsubset⟩
      · exact ⟨other, List.mem_append_right _ hlast, List.Subset.refl _⟩

theorem Keeps.foldl {found kept : List Conflict} (h : Keeps found kept) (more : List Conflict) :
    Keeps (found ++ more) (more.foldl keep kept) := by
  induction more generalizing found kept with
  | nil => rwa [List.append_nil]
  | cons first rest ih =>
    rw [List.append_cons]
    exact ih (h.step first)

theorem keeps_foldl (found : List Conflict) : Keeps found (found.foldl keep []) :=
  Keeps.foldl ⟨List.Sublist.refl _, List.Pairwise.nil, nofun⟩ found

/-- Where a kept conflict has all its members in another one, it was found later. -/
theorem Keeps.of_subset {found kept : List Conflict} (h : Keeps found kept)
    {follows : Conflict → Conflict → Prop}
    (hfound : found.Pairwise fun earlier later =>
      later.members ⊆ earlier.members → later = earlier ∨ follows later earlier)
    {small large : Conflict} (hsmall : small ∈ kept) (hlarge : large ∈ kept)
    (hne : small ≠ large) (hsubset : small.members ⊆ large.members) :
    ¬large.members ⊆ small.members ∧ follows small large := by
  have hkept := h.uncovered.and (hfound.sublist h.sublist)
  obtain ⟨before, after, rfl⟩ := List.append_of_mem hsmall
  obtain ⟨-, hafter, hbefore⟩ := List.pairwise_append.mp hkept
  rcases List.mem_append.mp hlarge with hearlier | hlater
  · obtain ⟨huncovered, hfollows⟩ := hbefore large hearlier small (List.mem_cons_self ..)
    exact ⟨huncovered, (hfollows hsubset).resolve_left hne⟩
  · have hlater := (List.mem_cons.mp hlater).resolve_left hne.symm
    exact absurd hsubset ((List.pairwise_cons.mp hafter).1 large hlater).1

/-! ### Conflicts that come from different constraints -/

variable {active : List (Constraint α)} {a b : Conflict}

theorem not_subset_of_mem (hids : (active.map (·.id)).Nodup) (p : Constraint α → Prop)
    {k : Constraint α} (hk : k ∈ active) (hmember : k.id ∈ a.members) (hp : p k)
    (hothers : ∀ id ∈ b.members, ∃ other ∈ active, other.id = id ∧ ¬p other) :
    ¬a.members ⊆ b.members := by
  intro hsubset
  obtain ⟨other, hother, hsame, hnot⟩ := hothers k.id (hsubset hmember)
  rw [List.inj_on_of_nodup_map hids hother hk hsame] at hnot
  exact hnot hp

variable [Scalar α] [NumberText α] {s : Sketch α} {tolerance : α}

/-- The conflict has two members that hold no point, and one of them has no target. -/
def HasFreePair (s : Sketch α) (active : List (Constraint α)) (a : Conflict) : Prop :=
  ∃ k ∈ active, ∃ other ∈ active, k ≠ other ∧ k.id ∈ a.members ∧ other.id ∈ a.members ∧
    s.target? k.requirement = none ∧ k.requirement.isFixed = false ∧
    other.requirement.isFixed = false

theorem HasFreePair.not_subset_target (hids : (active.map (·.id)).Nodup)
    (ha : HasFreePair s active a) (hb : b ∈ betweenTargets s active tolerance) :
    ¬a.members ⊆ b.members := by
  obtain ⟨k, hk, -, -, -, hmember, -, htarget, -⟩ := ha
  obtain ⟨q, -, hq⟩ := List.mem_filterMap.mp hb
  obtain ⟨-, -, htargets⟩ := ofQuantity?_members hq
  refine not_subset_of_mem hids (fun k => s.target? k.requirement = none) hk hmember htarget ?_
  intro id hid
  obtain ⟨other, hother, hsame, hquantity⟩ := htargets id hid
  refine ⟨other, hother, hsame, fun hnone => ?_⟩
  rw [hnone] at hquantity
  cases hquantity

theorem HasFreePair.not_subset_held (hids : (active.map (·.id)).Nodup)
    (ha : HasFreePair s active a) {held : Sketch α} {own : Constraint α} (hown : own ∈ active)
    (hb : withHeld? s held active tolerance own = some b) : ¬a.members ⊆ b.members := by
  intro hsubset
  obtain ⟨-, -, hmembers⟩ := withHeld?_members hb
  have hfree : ∀ k ∈ active, k.id ∈ a.members → k.requirement.isFixed = false → k = own := by
    intro k hk hmember hfixed
    rcases hmembers k.id (hsubset hmember) with hsame | ⟨holder, hholder, hsame, hfixes⟩
    · exact List.inj_on_of_nodup_map hids hk hown hsame
    · obtain rfl := List.inj_on_of_nodup_map hids hholder hk hsame
      rw [Requirement.isFixed_of_fixesOneOf hfixes] at hfixed
      cases hfixed
  obtain ⟨k, hk, other, hother, hne, hmember, hmember', -, hfixed, hfixed'⟩ := ha
  exact hne ((hfree k hk hmember hfixed).trans (hfree other hother hmember' hfixed').symm)

/-! ### Two conflicts of one rule -/

theorem eq_of_subset_of_targets (hids : (active.map (·.id)).Nodup)
    (ha : a ∈ betweenTargets s active tolerance) (hb : b ∈ betweenTargets s active tolerance)
    (hsubset : a.members ⊆ b.members) : a = b := by
  obtain ⟨q, -, hq⟩ := List.mem_filterMap.mp ha
  obtain ⟨q', -, hq'⟩ := List.mem_filterMap.mp hb
  obtain ⟨-, hne, hmembers⟩ := ofQuantity?_members hq
  obtain ⟨-, -, hmembers'⟩ := ofQuantity?_members hq'
  obtain ⟨id, rest, hcons⟩ := List.exists_cons_of_ne_nil hne
  have hid : id ∈ a.members := hcons ▸ List.mem_cons_self ..
  obtain ⟨k, hk, rfl, htarget⟩ := hmembers id hid
  obtain ⟨k', hk', hsame, htarget'⟩ := hmembers' k.id (hsubset hid)
  obtain rfl := List.inj_on_of_nodup_map hids hk' hk hsame
  obtain rfl := Option.some.inj (htarget.symm.trans htarget')
  exact Option.some.inj (hq.symm.trans hq')

/-- Both conflicts are about held points, the smaller one about a constraint that is to hold a point
of an older constraint, which the larger one is about. -/
def HoldsPointOf (s : Sketch α) (active : List (Constraint α)) (small large : Conflict) : Prop :=
  ∃ k ∈ active, ∃ older ∈ active, older.id.raw < k.id.raw ∧
    k.requirement.fixesOneOf (s.touchedPoints older.requirement) = true ∧
    small.subject = .held k.id ∧ large.subject = .held older.id

/-- Conflicts with held points are found in the order of the constraints that they are about. -/
theorem withHeldPoints_pairwise (hids : (active.map (·.id)).Nodup)
    (hascending : active.Pairwise fun older newer => older.id.raw < newer.id.raw)
    (known : List Conflict) :
    (withHeldPoints s active tolerance known).Pairwise fun earlier later =>
      later.members ⊆ earlier.members → HoldsPointOf s active later earlier := by
  unfold withHeldPoints
  dsimp only
  split
  · exact List.Pairwise.nil
  · refine List.pairwise_filterMap.mpr ?_
    refine (hascending.sublist List.filter_sublist).imp_of_mem ?_
    intro older newer holder hnewer hlt earlier hearlier later hlater hsubset
    obtain ⟨hsubject, -, hmembers⟩ := withHeld?_members hearlier
    obtain ⟨hsubject', hown, -⟩ := withHeld?_members hlater
    have hactive : newer ∈ active := List.mem_of_mem_filter hnewer
    rcases hmembers newer.id (hsubset hown) with hsame | ⟨k, hk, hsame, hfixes⟩
    · rw [hsame] at hlt
      exact absurd hlt (Nat.lt_irrefl _)
    · obtain rfl := List.inj_on_of_nodup_map hids hk hactive hsame
      exact ⟨k, hactive, older, List.mem_of_mem_filter holder, hlt, hfixes, hsubject', hsubject⟩

omit [NumberText α] in
theorem eq_of_subset_of_collapsedLine (hids : (active.map (·.id)).Nodup) {line line' : LineId}
    (ha : ofCollapsedLine? s active tolerance line = some a)
    (hb : ofCollapsedLine? s active tolerance line' = some b)
    (hsubset : a.members ⊆ b.members) : a = b := by
  obtain ⟨level, hlevel, _, -, hhorizontal, -, hmembers, -⟩ := ofCollapsedLine?_members ha
  have hmember := hsubset ((hmembers level.id).mpr (Or.inl rfl))
  rcases of_mem_collapsedLine hids hb hlevel hmember with hsame | hsame | ⟨hsets, -⟩
  · obtain rfl := Requirement.horizontal.inj (hhorizontal.symm.trans hsame)
    exact Option.some.inj (ha.symm.trans hb)
  · cases hhorizontal.symm.trans hsame
  · rw [Constraint.setsAxis, hhorizontal] at hsets
    cases hsets

omit [NumberText α] in
theorem eq_of_subset_of_crossedLines (hids : (active.map (·.id)).Nodup)
    {parallel parallel' : Constraint α} (hparallel : parallel ∈ active)
    (hparallel' : parallel' ∈ active)
    (ha : a ∈ withPerpendicular s active tolerance parallel)
    (hb : b ∈ withPerpendicular s active tolerance parallel')
    (hsubset : a.members ⊆ b.members) : a = b := by
  obtain ⟨k, l, m, n, perpendicular, hactive, -, heq, hturned, rfl⟩ := mem_withPerpendicular ha
  obtain ⟨k', l', m', n', perpendicular', hactive', -, heq', hturned', rfl⟩ :=
    mem_withPerpendicular hb
  obtain ⟨hfirst, hsecond, -⟩ :=
    ofCrossedLines_members s active tolerance parallel perpendicular k l
  have hsame : parallel = parallel' := by
    rcases of_mem_crossedLines hids hparallel' hactive' hparallel (hsubset hfirst) with
      hsame | rfl | ⟨-, hrelates⟩
    · exact hsame
    · cases heq.symm.trans hturned'
    · rw [Constraint.relatesLines, heq] at hrelates
      cases hrelates
  have hsame' : perpendicular = perpendicular' := by
    rcases of_mem_crossedLines hids hparallel' hactive' hactive (hsubset hsecond) with
      rfl | hsame | ⟨-, hrelates⟩
    · cases heq'.symm.trans hturned
    · exact hsame
    · rw [Constraint.relatesLines, hturned] at hrelates
      cases hrelates
  subst hsame hsame'
  obtain ⟨rfl, rfl⟩ := Requirement.parallel.inj (heq.symm.trans heq')
  rfl

omit [NumberText α] in
theorem eq_of_subset_of_collapse (hids : (active.map (·.id)).Nodup)
    (ha : a ∈ byCollapse s active tolerance) (hb : b ∈ byCollapse s active tolerance)
    (hsubset : a.members ⊆ b.members) : a = b := by
  rcases mem_byCollapse ha with ⟨line, ha⟩ | ⟨parallel, hparallel, ha⟩ <;>
    rcases mem_byCollapse hb with ⟨line', hb⟩ | ⟨parallel', hparallel', hb⟩
  · exact eq_of_subset_of_collapsedLine hids ha hb hsubset
  · obtain ⟨level, hlevel, _, -, hhorizontal, -, hmembers, -⟩ := ofCollapsedLine?_members ha
    have hmember := hsubset ((hmembers level.id).mpr (Or.inl rfl))
    have hsets := setsAxis_of_mem_crossedLines hids hparallel' hb hlevel hmember
    rw [Constraint.setsAxis, hhorizontal] at hsets
    cases hsets
  · obtain ⟨k, l, _, _, perpendicular, -, -, heq, -, rfl⟩ := mem_withPerpendicular ha
    obtain ⟨hfirst, -⟩ := ofCrossedLines_members s active tolerance parallel perpendicular k l
    have hrelates := relatesLines_of_mem_collapsedLine hids hb hparallel (hsubset hfirst)
    rw [Constraint.relatesLines, heq] at hrelates
    cases hrelates
  · exact eq_of_subset_of_crossedLines hids hparallel hparallel' ha hb hsubset

omit [NumberText α] in
theorem eq_of_subset_of_axes (hids : (active.map (·.id)).Nodup)
    (ha : a ∈ ofAxes s active) (hb : b ∈ ofAxes s active)
    (hsubset : a.members ⊆ b.members) : a = b := by
  obtain ⟨link, hlink, hof, hcontradicts, hmember, -, -⟩ := ofAxes_members ha
  obtain ⟨link', hlink', hof', -, -, -, hmembers⟩ := ofAxes_members hb
  obtain ⟨k, hk, hrelates, hid, hlinks⟩ := exists_of_mem_links hlink
  have heq {other : AxisLink α} (hother : other ∈ active.filterMap linkOf?)
      (hsame : other.id = link.id) : other = link := by
    obtain ⟨k', hk', -, hid', hlinks'⟩ := exists_of_mem_links hother
    rw [List.inj_on_of_nodup_map hids hk' hk (hid'.trans (hsame.trans hid.symm))] at hlinks'
    exact Option.some.inj (hlinks'.symm.trans hlinks)
  rcases hmembers link.id (hsubset hmember) with ⟨k', hk', hsets, hsame⟩ |
    ⟨other, hother, hsame, hholds⟩ | hsame
  · rw [List.inj_on_of_nodup_map hids hk' hk (hsame.trans hid.symm)] at hsets
    rw [(k.of_setsAxis s hsets).2.2] at hrelates
    cases hrelates
  · rw [heq hother hsame] at hholds
    exact absurd hholds hcontradicts
  · rw [heq hlink' hsame.symm] at hof'
    exact Option.some.inj (hof.symm.trans hof')

/-! ### Conflicts of two rules -/

omit [NumberText α] in
theorem hasFreePair_of_collapse (ha : a ∈ byCollapse s active tolerance) :
    HasFreePair s active a := by
  rcases mem_byCollapse ha with ⟨line, hfound⟩ | ⟨parallel, hparallel, hfound⟩
  · obtain ⟨level, hlevel, upright, hupright, hhorizontal, hvertical, hmembers, -⟩ :=
      ofCollapsedLine?_members hfound
    refine ⟨level, hlevel, upright, hupright, ?_, (hmembers _).mpr (Or.inl rfl),
      (hmembers _).mpr (Or.inr (Or.inl rfl)), ?_⟩
    · rintro rfl
      cases hhorizontal.symm.trans hvertical
    · rw [hhorizontal, hvertical]
      exact ⟨rfl, rfl, rfl⟩
  · obtain ⟨k, l, m, n, perpendicular, hperpendicular, -, heq, heq', rfl⟩ :=
      mem_withPerpendicular hfound
    obtain ⟨hfirst, hsecond, -⟩ :=
      ofCrossedLines_members s active tolerance parallel perpendicular k l
    refine ⟨parallel, hparallel, perpendicular, hperpendicular, ?_, hfirst, hsecond, ?_⟩
    · rintro rfl
      cases heq.symm.trans heq'
    · rw [heq, heq']
      exact ⟨rfl, rfl, rfl⟩

omit [NumberText α] in
theorem hasFreePair_of_axes (ha : a ∈ ofAxes s active) : HasFreePair s active a := by
  obtain ⟨link, hlink, -, -, hmember, ⟨k, hk, hsets, hmember'⟩, -⟩ := ofAxes_members ha
  obtain ⟨other, hother, hrelates, hid, -⟩ := exists_of_mem_links hlink
  obtain ⟨htarget, hfixed, hunrelated⟩ := k.of_setsAxis s hsets
  refine ⟨k, hk, other, hother, ?_, hmember', hid ▸ hmember, htarget, hfixed,
    other.isFixed_of_relatesLines hrelates⟩
  rintro rfl
  rw [hunrelated] at hrelates
  cases hrelates

omit [NumberText α] in
theorem not_subset_of_axes_of_collapse (hids : (active.map (·.id)).Nodup)
    (ha : a ∈ ofAxes s active) (hb : b ∈ byCollapse s active tolerance) :
    ¬a.members ⊆ b.members := by
  intro hsubset
  obtain ⟨link, hlink, -, -, hmember, ⟨k, hk, hsets, hmember'⟩, -⟩ := ofAxes_members ha
  rcases mem_byCollapse hb with ⟨line, hfound⟩ | ⟨parallel, hparallel, hfound⟩
  · obtain ⟨other, hother, hrelates, hid, -⟩ := exists_of_mem_links hlink
    rw [← hid] at hmember
    rw [relatesLines_of_mem_collapsedLine hids hfound hother (hsubset hmember)] at hrelates
    cases hrelates
  · rw [setsAxis_of_mem_crossedLines hids hparallel hfound hk (hsubset hmember')] at hsets
    cases hsets

/-- A conflict with held points is about a constraint that no conflict of targets has as a
member. -/
theorem not_subset_of_held_of_target (hids : (active.map (·.id)).Nodup) {tolerance' : α}
    (ha : a ∈ withHeldPoints s active tolerance'
      ((betweenTargets s active tolerance).foldl keep []))
    (hb : b ∈ betweenTargets s active tolerance) : ¬a.members ⊆ b.members := by
  intro hsubset
  obtain ⟨k, -, hunexplained, hheld⟩ := exists_withHeld? ha
  obtain ⟨-, hown, -⟩ := withHeld?_members hheld
  -- all conflicts of targets are kept
  obtain ⟨kept, hkept, hcovers⟩ := (keeps_foldl _).covers b hb
  have hin : kept ∈ betweenTargets s active tolerance := (keeps_foldl _).sublist.subset hkept
  obtain rfl := eq_of_subset_of_targets hids hin hb hcovers
  obtain ⟨q, -, hq⟩ := List.mem_filterMap.mp hb
  exact hunexplained kept hkept (ofQuantity?_members hq).1 (hsubset hown)

end Conflict

namespace Sketch

open Conflict

variable [Scalar α] [NumberText α] {s : Sketch α}

/-- All that the rules find, in the order in which they find it. -/
def ruleFindings (s : Sketch α) (c : DiagnosisConfig α) : List Conflict :=
  let targets := betweenTargets s s.validActive c.redundancyTolerance
  targets
    ++ withHeldPoints s s.validActive c.solver.maxErrorTolerance (targets.foldl keep [])
    ++ byCollapse s s.validActive c.redundancyTolerance
    ++ ofAxes s s.validActive

theorem ruleConflicts_eq_foldl (s : Sketch α) (c : DiagnosisConfig α) :
    s.ruleConflicts c = (s.ruleFindings c).foldl keep [] := by
  unfold ruleConflicts ruleFindings
  dsimp only
  rw [List.foldl_append, List.foldl_append, List.foldl_append]

theorem WellFormed.ruleFindings_pairwise (hs : s.WellFormed) (c : DiagnosisConfig α) :
    (s.ruleFindings c).Pairwise fun earlier later =>
      later.members ⊆ earlier.members →
        later = earlier ∨ HoldsPointOf s s.validActive later earlier := by
  have hids : (s.validActive.map (·.id)).Nodup :=
    hs.constraint_ids_nodup.sublist (List.filter_sublist.map _)
  have hascending : s.validActive.Pairwise fun older newer => older.id.raw < newer.id.raw :=
    (List.pairwise_map.mp hs.constraints_ascending).sublist List.filter_sublist
  refine List.pairwise_append.mpr ⟨List.pairwise_append.mpr ⟨List.pairwise_append.mpr
    ⟨?targets, ?held, ?beforeHeld⟩, ?collapse, ?beforeCollapse⟩, ?axes, ?beforeAxes⟩
  case targets =>
    refine List.pairwise_of_forall_mem_list fun earlier hearlier later hlater hsubset => ?_
    exact Or.inl (eq_of_subset_of_targets hids hlater hearlier hsubset)
  case held =>
    refine (withHeldPoints_pairwise hids hascending _).imp fun hfollows hsubset => ?_
    exact Or.inr (hfollows hsubset)
  case beforeHeld =>
    intro earlier hearlier later hlater hsubset
    exact absurd hsubset (not_subset_of_held_of_target hids hlater hearlier)
  case collapse =>
    refine List.pairwise_of_forall_mem_list fun earlier hearlier later hlater hsubset => ?_
    exact Or.inl (eq_of_subset_of_collapse hids hlater hearlier hsubset)
  case beforeCollapse =>
    intro earlier hearlier later hlater hsubset
    have hpair := hasFreePair_of_collapse hlater
    rcases List.mem_append.mp hearlier with htarget | hheld
    · exact absurd hsubset (hpair.not_subset_target hids htarget)
    · obtain ⟨own, hown, -, hheld⟩ := exists_withHeld? hheld
      exact absurd hsubset (hpair.not_subset_held hids hown hheld)
  case axes =>
    refine List.pairwise_of_forall_mem_list fun earlier hearlier later hlater hsubset => ?_
    exact Or.inl (eq_of_subset_of_axes hids hlater hearlier hsubset)
  case beforeAxes =>
    intro earlier hearlier later hlater hsubset
    have hpair := hasFreePair_of_axes hlater
    rcases List.mem_append.mp hearlier with hbefore | hcollapse
    · rcases List.mem_append.mp hbefore with htarget | hheld
      · exact absurd hsubset (hpair.not_subset_target hids htarget)
      · obtain ⟨own, hown, -, hheld⟩ := exists_withHeld? hheld
        exact absurd hsubset (hpair.not_subset_held hids hown hheld)
    · exact absurd hsubset (not_subset_of_axes_of_collapse hids hlater hcollapse)

/-- What is reported is kept of what the rules find and of what solving finds after them. -/
theorem exists_keeps_conflicts (s : Sketch α) (m : Minimizer α σ) (c : DiagnosisConfig α)
    (numeric : Bool) (state : σ) :
    ∃ solved : Option Conflict, (∀ conflict ∈ solved, conflict.subject = .unsolved) ∧
      ∃ kept, ((s.conflicts m c numeric).run state).1.Perm kept ∧
        Keeps (s.ruleFindings c ++ solved.toList) kept := by
  have hkeeps (solved : Option Conflict) :
      ((solved.toList.foldl keep (s.ruleConflicts c)).mergeSort precedes).Perm
          (solved.toList.foldl keep (s.ruleConflicts c)) ∧
        Keeps (s.ruleFindings c ++ solved.toList)
          (solved.toList.foldl keep (s.ruleConflicts c)) := by
    rw [ruleConflicts_eq_foldl]
    exact ⟨List.mergeSort_perm .., (keeps_foldl _).foldl _⟩
  unfold conflicts
  dsimp only
  split
  · rw [run_bind_fst]
    refine ⟨((bySolving? s s.validActive m c).run state).1, ?_, _, hkeeps _⟩
    intro conflict hfound
    rcases bySolving?_cases hfound with rfl | ⟨_, _, -, rfl⟩ <;> rfl
  · exact ⟨none, nofun, _, hkeeps none⟩

theorem mem_conflicts_of_mem_ruleConflicts {c : DiagnosisConfig α} {conflict : Conflict}
    (h : conflict ∈ s.ruleConflicts c) (m : Minimizer α σ) (numeric : Bool) (state : σ) :
    conflict ∈ ((s.conflicts m c numeric).run state).1 := by
  unfold conflicts
  dsimp only
  split
  · rw [run_bind_fst]
    exact List.mem_mergeSort.mpr (mem_foldl_keep_of_mem _ h)
  · exact List.mem_mergeSort.mpr h

/-- No conflict is reported twice, and every one that is found has a reported one among its members.
The members of one that is reported are among those of another one only where the order of the
search does not help: it comes from solving, or it is about a constraint that holds a point
elsewhere, and the other one is about an older constraint on that point. -/
theorem conflicts_overlap (hs : s.WellFormed) (m : Minimizer α σ) (c : DiagnosisConfig α)
    (numeric : Bool) (state : σ) :
    let reported := ((s.conflicts m c numeric).run state).1
    reported.Nodup ∧
    (∃ solved : Option Conflict, (∀ conflict ∈ solved, conflict.subject = .unsolved) ∧
      reported ⊆ s.ruleFindings c ++ solved.toList ∧
      ∀ found ∈ s.ruleFindings c ++ solved.toList,
        ∃ conflict ∈ reported, conflict.members ⊆ found.members) ∧
    ∀ small ∈ reported, ∀ large ∈ reported, small ≠ large → small.members ⊆ large.members →
      ¬large.members ⊆ small.members ∧
        (small.subject = .unsolved ∨ HoldsPointOf s s.validActive small large) := by
  intro reported
  obtain ⟨solved, hsolved, kept, hperm, hkeeps⟩ := s.exists_keeps_conflicts m c numeric state
  have hfollows : (s.ruleFindings c ++ solved.toList).Pairwise fun earlier later =>
      later.members ⊆ earlier.members → later = earlier ∨
        (later.subject = .unsolved ∨ HoldsPointOf s s.validActive later earlier) := by
    refine List.pairwise_append.mpr ⟨(hs.ruleFindings_pairwise c).imp ?_, ?_, ?_⟩
    · exact fun hfollows hsubset => (hfollows hsubset).imp_right Or.inr
    · cases solved with
      | none => exact List.Pairwise.nil
      | some conflict => exact List.pairwise_singleton ..
    · intro earlier _ later hlater _
      exact Or.inr (Or.inl (hsolved later (Option.mem_toList.mp hlater)))
  refine ⟨?_, ⟨solved, hsolved, ?_, ?_⟩, ?_⟩
  · refine hperm.nodup_iff.mpr (hkeeps.uncovered.imp ?_)
    rintro earlier later huncovered rfl
    exact huncovered (List.Subset.refl _)
  · exact fun conflict hconflict => hkeeps.sublist.subset (hperm.subset hconflict)
  · intro found hfound
    obtain ⟨conflict, hconflict, hsubset⟩ := hkeeps.covers found hfound
    exact ⟨conflict, hperm.mem_iff.mpr hconflict, hsubset⟩
  · intro small hsmall large hlarge
    exact hkeeps.of_subset hfollows (hperm.subset hsmall) (hperm.subset hlarge)

/-- Two fixed points that are to coincide, and one of them is to be held elsewhere. -/
def overpinned : Sketch Float :=
  let s := ((empty "overpinned").addFixedPoint ⟨0.0, 0.0⟩).2
  let s := (s.addFixedPoint ⟨1.0, 0.0⟩).2
  let s := (s.addConstraint (.coincident ⟨0⟩ ⟨1⟩)).2
  (s.addConstraint (.fixed ⟨0⟩ ⟨5.0, 0.0⟩)).2

theorem wellFormed_overpinned : overpinned.WellFormed :=
  ((evolves_addPointWith _ _ _).trans <| (evolves_addPointWith _ _ _).trans <|
    (evolves_addConstraint _ _).trans <| evolves_addConstraint _ _).wellFormed (wellFormed_empty _)

theorem exists_conflicts_overpinned (m : Minimizer Float σ) (numeric : Bool) (state : σ) :
    let reported := ((overpinned.conflicts m .standard numeric).run state).1
    ∃ small ∈ reported, ∃ large ∈ reported, small ≠ large ∧ small.members = [⟨1⟩] ∧
      large.members = [⟨0⟩, ⟨1⟩] := by
  have hmembers : (overpinned.ruleConflicts .standard).map (·.members) =
      [[⟨0⟩, ⟨1⟩], [⟨1⟩]] := by
    decide +kernel
  have hreported (members : List ConstraintId)
      (h : members ∈ (overpinned.ruleConflicts .standard).map (·.members)) :
      ∃ conflict ∈ ((overpinned.conflicts m .standard numeric).run state).1,
        conflict.members = members := by
    obtain ⟨conflict, hconflict, hsame⟩ := List.mem_map.mp h
    exact ⟨conflict, mem_conflicts_of_mem_ruleConflicts hconflict m numeric state, hsame⟩
  obtain ⟨small, hsmall, hone⟩ := hreported [⟨1⟩] (by rw [hmembers]; decide)
  obtain ⟨large, hlarge, htwo⟩ := hreported [⟨0⟩, ⟨1⟩] (by rw [hmembers]; decide)
  refine ⟨small, hsmall, large, hlarge, ?_, hone, htwo⟩
  rintro rfl
  rw [hone] at htwo
  cases htwo

theorem conflicts_overlap_overpinned :
    let reported := ((overpinned.conflicts (.null : Minimizer Float Unit) .standard true).run ()).1
    ∃ small ∈ reported, ∃ large ∈ reported, small.members = [⟨1⟩] ∧ large.members = [⟨0⟩, ⟨1⟩] ∧
      (small.subject = .unsolved ∨
        HoldsPointOf overpinned overpinned.validActive small large) := by
  obtain ⟨small, hsmall, large, hlarge, hne, hone, htwo⟩ :=
    exists_conflicts_overpinned (.null : Minimizer Float Unit) true ()
  refine ⟨small, hsmall, large, hlarge, hone, htwo, ?_⟩
  have hsubset : small.members ⊆ large.members := by
    rw [hone, htwo]
    decide
  exact ((conflicts_overlap wellFormed_overpinned .null .standard true ()).2.2 small hsmall large
    hlarge hne hsubset).2

/-- The conflicts of a sketch are not always minimal with respect to each other. -/
theorem exists_covered_overpinned :
    let reported := ((overpinned.conflicts (.null : Minimizer Float Unit) .standard true).run ()).1
    ∃ small ∈ reported, ∃ large ∈ reported, small ≠ large ∧ small.members ⊆ large.members := by
  obtain ⟨small, hsmall, large, hlarge, hne, hone, htwo⟩ :=
    exists_conflicts_overpinned (.null : Minimizer Float Unit) true ()
  refine ⟨small, hsmall, large, hlarge, hne, ?_⟩
  rw [hone, htwo]
  decide

end Sketch

end PlaneSketch
