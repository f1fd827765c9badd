import PlaneSketch.Proofs.Listing

/-!
# Fixable conflicts

What becomes of a fixable conflict (`auto_fixable`) when its newest member is taken out. Conflicting
targets and conflicts with held points are gone. A collapse is a matter of two constraints, and it
is there again when another constraint asks the same as the one that was taken out.
-/

namespace PlaneSketch

variable {α σ : Type}

/-- The collapse that a requirement has a part in, and which of its two parts: horizontal and
vertical on one line, or parallel and perpendicular on one pair of lines. -/
def Requirement.collapsing? : Requirement α → Option (Subject × Bool)
  | .horizontal line => some (.collapsedLine line, false)
  | .vertical line => some (.collapsedLine line, true)
  | .parallel k l => some (.crossedLines (orderedLines k l), false)
  | .perpendicular k l => some (.crossedLines (orderedLines k l), true)
  | _ => none

theorem Requirement.of_collapsing? {r : Requirement α} {subject : Subject} {turned : Bool}
    (h : r.collapsing? = some (subject, turned)) :
    (∃ line, subject = .collapsedLine line ∧
      r = if turned then .vertical line else .horizontal line) ∨
    ∃ k l, subject = .crossedLines (orderedLines k l) ∧
      r = if turned then .perpendicular k l else .parallel k l := by
  unfold collapsing? at h
  split at h <;> cases h
  case h_1 line => exact Or.inl ⟨line, rfl, rfl⟩
  case h_2 line => exact Or.inl ⟨line, rfl, rfl⟩
  case h_3 k l => exact Or.inr ⟨k, l, rfl, rfl⟩
  case h_4 k l => exact Or.inr ⟨k, l, rfl, rfl⟩

def Subject.isCollapse : Subject → Bool
  | .collapsedLine _ | .crossedLines _ => true
  | _ => false

theorem Requirement.isCollapse_of_collapsing? {r : Requirement α} {subject : Subject}
    {turned : Bool} (h : r.collapsing? = some (subject, turned)) : subject.isCollapse = true := by
  rcases of_collapsing? h with ⟨_, rfl, -⟩ | ⟨_, _, rfl, -⟩ <;> rfl

namespace Sketch

variable [Scalar α]

/-! ### Without a constraint -/

theorem validActive_dropped (s : Sketch α) (id : ConstraintId) :
    (s.dropped id).validActive = s.validActive.filter (·.id ≠ id) := by
  unfold validActive dropped
  rw [List.filter_filter, List.filter_filter]
  exact List.filter_congr fun k _ => Bool.and_comm _ _

theorem target?_dropped (s : Sketch α) (id : ConstraintId) (r : Requirement α) :
    (s.dropped id).target? r = s.target? r := by
  cases r <;> rfl

theorem targeting_dropped (s : Sketch α) (active : List (Constraint α)) (id : ConstraintId)
    (q : Quantity) :
    Conflict.targeting (s.dropped id) (active.filter (·.id ≠ id)) q =
      (Conflict.targeting s active q).filter (·.1.id ≠ id) := by
  unfold Conflict.targeting
  rw [List.filter_filterMap, List.filterMap_filter]
  refine List.filterMap_congr fun k _ => ?_
  rw [target?_dropped]
  cases s.target? k.requirement with
  | none => simp
  | some found =>
    by_cases hid : k.id = id <;> by_cases hquantity : found.1 = q <;>
      simp [hid, hquantity, Option.filter]

end Sketch

namespace Conflict

variable [Scalar α] {s : Sketch α} {active : List (Constraint α)} {tolerance : α}
  {conflict : Conflict}

/-! ### Collapse -/

omit [Scalar α] in
theorem getLast?_of_collapse {subject : Subject} {members : List ConstraintId}
    {first second : ConstraintId} {severity : Severity} {explanation : String}
    (h : (collapse s subject members first second severity explanation).autoFixable = true) :
    members.getLast? = some first ∨ members.getLast? = some second := by
  have hlast := of_decide_eq_true h
  split at hlast
  · exact Or.inr hlast
  · exact Or.inl hlast

theorem exists_ofCrossedLines_eq (s : Sketch α) (active : List (Constraint α)) (tolerance : α)
    (parallel perpendicular : Constraint α) (k l : LineId) :
    ∃ members severity explanation, ofCrossedLines s active tolerance parallel perpendicular k l =
      collapse s (.crossedLines (orderedLines k l)) members parallel.id perpendicular.id severity
        explanation := by
  unfold ofCrossedLines
  dsimp only
  split <;> exact ⟨_, _, _, rfl⟩

theorem exists_ofCollapsedLine? (s : Sketch α) (tolerance : α) {level upright : Constraint α}
    {line : LineId} (hlevel : level ∈ active) (hupright : upright ∈ active)
    (hhorizontal : level.requirement = .horizontal line)
    (hvertical : upright.requirement = .vertical line) :
    ∃ conflict, ofCollapsedLine? s active tolerance line = some conflict := by
  rw [← Option.isSome_iff_exists]
  unfold ofCollapsedLine?
  simp only [Option.bind_eq_bind, Option.isSome_bind, Option.pure_def, Option.isSome_some,
    Option.any_eq_true, and_true, exists_and_right, ← Option.isSome_iff_exists, List.find?_isSome]
  exact ⟨⟨level, hlevel, by simp [hhorizontal]⟩, upright, hupright, by simp [hvertical]⟩

/-- A line that collapses is there, and each part of the collapse has a constraint. -/
structure IsThere (s : Sketch α) (active : List (Constraint α)) (subject : Subject) : Prop where
  line : ∀ line, subject = .collapsedLine line → line ∈ s.lines.map (·.id)
  part : ∀ turned, ∃ k ∈ active, k.requirement.collapsing? = some (subject, turned)

theorem exists_parts_of_mem_byCollapse (h : conflict ∈ byCollapse s active tolerance) :
    (∀ line, conflict.subject = .collapsedLine line → line ∈ s.lines.map (·.id)) ∧
    ∃ first ∈ active, ∃ second ∈ active,
      first.requirement.collapsing? = some (conflict.subject, false) ∧
      second.requirement.collapsing? = some (conflict.subject, true) ∧
      (conflict.autoFixable = true → conflict.members.getLast? = some first.id ∨
        conflict.members.getLast? = some second.id) := by
  rcases List.mem_append.mp h with hline | hlines
  · obtain ⟨l, hl, hfound⟩ := List.mem_filterMap.mp hline
    obtain ⟨level, hlevel, upright, hupright, hhorizontal, hvertical, _, _, -, rfl⟩ :=
      of_ofCollapsedLine? hfound
    refine ⟨?_, level, hlevel, upright, hupright, ?_, ?_, getLast?_of_collapse⟩
    · intro line hsubject
      obtain rfl := Subject.collapsedLine.inj hsubject
      exact List.mem_map_of_mem hl
    · rw [hhorizontal]
      rfl
    · rw [hvertical]
      rfl
  · obtain ⟨parallel, hparallel, hfound⟩ := List.mem_flatMap.mp hlines
    obtain ⟨k, l, m, n, perpendicular, hperpendicular, hpair, heq, heq', rfl⟩ :=
      mem_withPerpendicular hfound
    obtain ⟨_, _, _, hconflict⟩ :=
      exists_ofCrossedLines_eq s active tolerance parallel perpendicular k l
    rw [hconflict]
    refine ⟨nofun, parallel, hparallel, perpendicular, hperpendicular, ?_, ?_,
      getLast?_of_collapse⟩
    · rw [heq]
      rfl
    · rw [heq', Requirement.collapsing?, hpair]
      rfl

theorem isThere_of_mem_byCollapse (h : conflict ∈ byCollapse s active tolerance) :
    IsThere s active conflict.subject := by
  obtain ⟨hline, first, hfirst, second, hsecond, hpart, hpart', -⟩ :=
    exists_parts_of_mem_byCollapse h
  refine ⟨hline, fun turned => ?_⟩
  cases turned with
  | false => exact ⟨first, hfirst, hpart⟩
  | true => exact ⟨second, hsecond, hpart'⟩

omit [Scalar α] in
theorem IsThere.isCollapse {subject : Subject} (h : IsThere s active subject) :
    subject.isCollapse = true := by
  obtain ⟨_, -, hpart⟩ := h.part false
  exact Requirement.isCollapse_of_collapsing? hpart

/-- The newest member of a collapse that is fixable has a part in it. -/
theorem exists_newest_of_mem_byCollapse (h : conflict ∈ byCollapse s active tolerance)
    (hfixable : conflict.autoFixable = true) :
    ∃ k ∈ active, ∃ turned, k.requirement.collapsing? = some (conflict.subject, turned) ∧
      conflict.members.getLast? = some k.id := by
  obtain ⟨-, first, hfirst, second, hsecond, hpart, hpart', hlast⟩ :=
    exists_parts_of_mem_byCollapse h
  rcases hlast hfixable with hlast | hlast
  · exact ⟨first, hfirst, false, hpart, hlast⟩
  · exact ⟨second, hsecond, true, hpart', hlast⟩

theorem IsThere.exists_found {subject : Subject} (h : IsThere s active subject) (tolerance : α) :
    ∃ found ∈ byCollapse s active tolerance, found.subject = subject := by
  obtain ⟨first, hfirst, hpart⟩ := h.part false
  obtain ⟨second, hsecond, hpart'⟩ := h.part true
  rcases Requirement.of_collapsing? hpart with ⟨line, rfl, hlevel⟩ | ⟨k, l, rfl, hparallel⟩
  · obtain ⟨_, hsame, hupright⟩ | ⟨_, _, hsame, -⟩ := Requirement.of_collapsing? hpart'
    · cases hsame
      obtain ⟨found, hfound⟩ := exists_ofCollapsedLine? s tolerance hfirst hsecond hlevel hupright
      obtain ⟨_, -, _, -, -, -, _, _, -, rfl⟩ := of_ofCollapsedLine? hfound
      obtain ⟨l, hl, rfl⟩ := List.mem_map.mp (h.line line rfl)
      exact ⟨_, List.mem_append_left _ (List.mem_filterMap.mpr ⟨l, hl, hfound⟩), rfl⟩
    · cases hsame
  · obtain ⟨_, hsame, -⟩ | ⟨m, n, hsame, hturned⟩ := Requirement.of_collapsing? hpart'
    · cases hsame
    · have hpair : orderedLines m n = orderedLines k l := (Subject.crossedLines.inj hsame).symm
      have hfound : ofCrossedLines s active tolerance first second k l ∈
          withPerpendicular s active tolerance first := by
        unfold withPerpendicular
        simp only [hparallel]
        exact List.mem_filterMap.mpr ⟨second, hsecond, by simp [hturned, hpair]⟩
      obtain ⟨_, _, _, hconflict⟩ := exists_ofCrossedLines_eq s active tolerance first second k l
      refine ⟨_, List.mem_append_right _ (List.mem_flatMap.mpr ⟨first, hfirst, hfound⟩), ?_⟩
      rw [hconflict]
      rfl

end Conflict

/-! ### What is found again -/

namespace Sketch

open Conflict

variable [Scalar α] [NumberText α] {s : Sketch α} {c : DiagnosisConfig α}
  {found conflict : Conflict}

theorem mem_ruleFindings_cases (h : found ∈ s.ruleFindings c) :
    (∃ q, found.subject = .quantity q ∧
      allAgree c.redundancyTolerance ((targeting s s.validActive q).map (·.2)) = false) ∨
    (∃ k ∈ s.validActive, found.subject = .held k.id) ∨
    IsThere s s.validActive found.subject ∨
    ∃ id, found.subject = .axes id := by
  rcases List.mem_append.mp h with h | haxes
  · rcases List.mem_append.mp h with h | hcollapse
    · rcases List.mem_append.mp h with htarget | hheld
      · obtain ⟨q, -, hq⟩ := List.mem_filterMap.mp htarget
        obtain ⟨hdisagree, hsubject, -⟩ := of_ofQuantity? hq
        exact Or.inl ⟨q, hsubject, hdisagree⟩
      · obtain ⟨k, hk, -, hheld⟩ := exists_withHeld? hheld
        exact Or.inr (Or.inl ⟨k, hk, (withHeld?_members hheld).1⟩)
    · exact Or.inr (Or.inr (Or.inl (isThere_of_mem_byCollapse hcollapse)))
  · exact Or.inr (Or.inr (Or.inr (of_mem_ofAxes haxes).2.2))

theorem subject_ne_quantity {q : Quantity} (h : found ∈ s.ruleFindings c)
    (hagree : allAgree c.redundancyTolerance ((targeting s s.validActive q).map (·.2)) = true) :
    found.subject ≠ .quantity q := by
  intro hsubject
  rcases mem_ruleFindings_cases h with ⟨_, hfor, hdisagree⟩ | ⟨_, -, hfor⟩ | hthere | ⟨_, hfor⟩
  · obtain rfl := Subject.quantity.inj (hfor.symm.trans hsubject)
    rw [hagree] at hdisagree
    cases hdisagree
  · cases hfor.symm.trans hsubject
  · have hcollapse := hthere.isCollapse
    rw [hsubject] at hcollapse
    cases hcollapse
  · cases hfor.symm.trans hsubject

theorem mem_ids_of_held {id : ConstraintId} (h : found ∈ s.ruleFindings c)
    (hsubject : found.subject = .held id) : ∃ k ∈ s.validActive, k.id = id := by
  rcases mem_ruleFindings_cases h with ⟨_, hfor, -⟩ | ⟨k, hk, hfor⟩ | hthere | ⟨_, hfor⟩
  · cases hfor.symm.trans hsubject
  · exact ⟨k, hk, Subject.held.inj (hfor.symm.trans hsubject)⟩
  · have hcollapse := hthere.isCollapse
    rw [hsubject] at hcollapse
    cases hcollapse
  · cases hfor.symm.trans hsubject

/-- A collapse is found again exactly if each part of it still has a constraint. -/
theorem exists_found_iff {subject : Subject} {r : Requirement α} {turned : Bool}
    (h : r.collapsing? = some (subject, turned)) :
    (∃ found ∈ s.ruleFindings c, found.subject = subject) ↔ IsThere s s.validActive subject := by
  have hcollapse := Requirement.isCollapse_of_collapsing? h
  constructor
  · rintro ⟨found, hfound, rfl⟩
    rcases mem_ruleFindings_cases hfound with ⟨_, hfor, -⟩ | ⟨_, -, hfor⟩ | hthere | ⟨_, hfor⟩
    · rw [hfor] at hcollapse
      cases hcollapse
    · rw [hfor] at hcollapse
      cases hcollapse
    · exact hthere
    · rw [hfor] at hcollapse
      cases hcollapse
  · intro hthere
    obtain ⟨found, hfound, hsubject⟩ := hthere.exists_found c.redundancyTolerance
    exact ⟨found, List.mem_append_left _ (List.mem_append_right _ hfound), hsubject⟩

omit [NumberText α] in
/-- Without a constraint that has a part in a collapse, the collapse is there exactly if another
constraint has the same part. -/
theorem isThere_dropped_iff (hids : (s.validActive.map (·.id)).Nodup) {subject : Subject}
    (h : IsThere s s.validActive subject) {k : Constraint α} (hk : k ∈ s.validActive)
    {turned : Bool} (hpart : k.requirement.collapsing? = some (subject, turned)) :
    IsThere (s.dropped k.id) (s.dropped k.id).validActive subject ↔
      ∃ twin ∈ s.validActive, twin.id ≠ k.id ∧
        twin.requirement.collapsing? = some (subject, turned) := by
  rw [validActive_dropped]
  constructor
  · intro hthere
    obtain ⟨twin, htwin, hsame⟩ := hthere.part turned
    obtain ⟨hactive, hne⟩ := List.mem_filter.mp htwin
    exact ⟨twin, hactive, of_decide_eq_true hne, hsame⟩
  · rintro ⟨twin, htwin, hne, hsame⟩
    refine ⟨h.line, fun other => ?_⟩
    by_cases hother : other = turned
    · exact ⟨twin, List.mem_filter.mpr ⟨htwin, decide_eq_true hne⟩, hother ▸ hsame⟩
    · -- the counterpart is another constraint
      obtain ⟨counterpart, hcounterpart, hpart'⟩ := h.part other
      refine ⟨counterpart, List.mem_filter.mpr ⟨hcounterpart, decide_eq_true fun hid => ?_⟩, hpart'⟩
      rw [List.inj_on_of_nodup_map hids hcounterpart hk hid, hpart] at hpart'
      cases hpart'
      exact hother rfl

theorem exists_newest (h : conflict ∈ s.ruleConflicts c) :
    ∃ k ∈ s.validActive, conflict.newest? = some k.id ∧
      conflict.members.getLast? = some k.id := by
  have hlisted := isListed_of_mem_ruleConflicts h
  have hlast := List.getLast?_eq_some_getLast hlisted.nonempty
  obtain ⟨k, hk, hid⟩ := List.mem_map.mp (hlisted.valid (List.getLast_mem hlisted.nonempty))
  rw [← hid] at hlast
  exact ⟨k, hk, (newest?_eq_getLast? hlisted.ascending).trans hlast, hlast⟩

/-- Without the newest of some conflicting targets the others agree. -/
theorem gone_of_mem_betweenTargets
    (h : conflict ∈ betweenTargets s s.validActive c.redundancyTolerance)
    (hfixable : conflict.autoFixable = true) {id : ConstraintId}
    (hlast : conflict.members.getLast? = some id) :
    conflict.subject.isCollapse = false ∧
      ∀ found ∈ (s.dropped id).ruleFindings c, found.subject ≠ conflict.subject := by
  obtain ⟨q, -, hq⟩ := List.mem_filterMap.mp h
  obtain ⟨-, hsubject, -, -, newest, hnewest, hrest⟩ := of_ofQuantity? hq
  obtain rfl := Option.some.inj (hlast.symm.trans hnewest)
  rw [hsubject]
  refine ⟨rfl, fun found hfound => subject_ne_quantity hfound ?_⟩
  rw [validActive_dropped, targeting_dropped]
  exact hrest.symm.trans hfixable

/-- What a fixable conflict with held points is about is its newest member. -/
theorem gone_of_mem_withHeldPoints {known : List Conflict}
    (h : conflict ∈ withHeldPoints s s.validActive c.solver.maxErrorTolerance known)
    (hfixable : conflict.autoFixable = true) {id : ConstraintId}
    (hlast : conflict.members.getLast? = some id) :
    conflict.subject.isCollapse = false ∧
      ∀ found ∈ (s.dropped id).ruleFindings c, found.subject ≠ conflict.subject := by
  obtain ⟨k, -, -, hheld⟩ := exists_withHeld? h
  obtain ⟨-, -, -, hsubject, -, hown⟩ := of_withHeld? hheld
  have hnewest := of_decide_eq_true (hown.symm.trans hfixable)
  obtain rfl : id = k.id := Option.some.inj (hlast.symm.trans hnewest)
  rw [hsubject]
  refine ⟨rfl, fun found hfound hfor => ?_⟩
  obtain ⟨other, hother, hid⟩ := mem_ids_of_held hfound hfor
  rw [validActive_dropped] at hother
  exact of_decide_eq_true (List.mem_filter.mp hother).2 hid

/-- Taking the newest member of a fixable conflict out leaves no conflict about the same subject,
unless it is a collapse and another constraint has the same part in it as that member. -/
theorem conflicts_fixable (hs : s.WellFormed) (m : Minimizer α σ) {numeric : Bool} {state : σ}
    (h : conflict ∈ ((s.conflicts m c numeric).run state).1)
    (hfixable : conflict.autoFixable = true) :
    ∃ k ∈ s.validActive, conflict.newest? = some k.id ∧
      ((∃ found ∈ ((Operation.removeConstraint k.id).apply s).ruleFindings c,
          found.subject = conflict.subject) ↔
        ∃ turned, k.requirement.collapsing? = some (conflict.subject, turned) ∧
          ∃ twin ∈ s.validActive, twin.id ≠ k.id ∧
            twin.requirement.collapsing? = some (conflict.subject, turned)) := by
  have hids : (s.validActive.map (·.id)).Nodup :=
    hs.constraint_ids_nodup.sublist (List.filter_sublist.map _)
  have hrule : conflict ∈ s.ruleConflicts c := by
    rcases mem_conflicts_cases h with hrule | ⟨-, hsolved⟩
    · exact hrule
    · rcases bySolving?_cases hsolved with rfl | ⟨_, _, -, rfl⟩ <;> cases hfixable
  obtain ⟨k, hk, hnewest, hlast⟩ := exists_newest hrule
  refine ⟨k, hk, hnewest, ?_⟩
  rw [apply_removeConstraint hs.constraint_ids_nodup]
  have hgone (hkind : conflict.subject.isCollapse = false ∧
      ∀ found ∈ (s.dropped k.id).ruleFindings c, found.subject ≠ conflict.subject) :
      (∃ found ∈ (s.dropped k.id).ruleFindings c, found.subject = conflict.subject) ↔
        ∃ turned, k.requirement.collapsing? = some (conflict.subject, turned) ∧
          ∃ twin ∈ s.validActive, twin.id ≠ k.id ∧
            twin.requirement.collapsing? = some (conflict.subject, turned) := by
    refine iff_of_false (fun ⟨found, hfound, hsame⟩ => hkind.2 found hfound hsame) ?_
    rintro ⟨turned, hpart, -⟩
    rw [Requirement.isCollapse_of_collapsing? hpart] at hkind
    cases hkind.1
  rcases ruleConflicts_cases hrule with htarget | ⟨known, hheld⟩ | hcollapse | haxes
  · exact hgone (gone_of_mem_betweenTargets htarget hfixable hlast)
  · exact hgone (gone_of_mem_withHeldPoints hheld hfixable hlast)
  · obtain ⟨k', hk', turned, hpart, hlast'⟩ := exists_newest_of_mem_byCollapse hcollapse hfixable
    have hsame : k'.id = k.id := Option.some.inj (hlast'.symm.trans hlast)
    obtain rfl := List.inj_on_of_nodup_map hids hk' hk hsame
    rw [exists_found_iff hpart,
      isThere_dropped_iff hids (isThere_of_mem_byCollapse hcollapse) hk hpart]
    simp only [hpart, Option.some.injEq, Prod.mk.injEq, true_and, exists_eq_left']
  · rw [(of_mem_ofAxes haxes).2.1] at hfixable
    cases hfixable

/-- A line that is to be horizontal and vertical. -/
def upright : Sketch Float := (slanted.addConstraint (.vertical ⟨2⟩)).2

theorem conflicts_fixable_upright :
    let reported := ((upright.conflicts (.answering []) .standard false).run ()).1
    upright.WellFormed ∧ ∃ conflict ∈ reported, conflict.autoFixable = true ∧
      conflict.newest? = some ⟨1⟩ ∧
      ∀ found ∈ ((Operation.removeConstraint ⟨1⟩).apply upright).ruleFindings .standard,
        found.subject ≠ conflict.subject := by
  intro reported
  have hs : upright.WellFormed := wellFormed_slanted.addConstraint _
  obtain ⟨conflict, hconflict, hfixable, hnewest⟩ : ∃ conflict ∈ reported,
      conflict.autoFixable = true ∧ conflict.newest? = some ⟨1⟩ := by
    decide +kernel
  obtain ⟨k, hk, hid, hagain⟩ := conflicts_fixable hs _ hconflict hfixable
  obtain hk' : (⟨1⟩ : ConstraintId) = k.id := Option.some.inj (hnewest.symm.trans hid)
  have halone : ∀ k ∈ upright.validActive, k.id = ⟨1⟩ → ∀ twin ∈ upright.validActive,
      twin.id ≠ k.id → twin.requirement.collapsing? ≠ k.requirement.collapsing? := by
    decide +kernel
  rw [← hk'] at hagain
  refine ⟨hs, conflict, hconflict, hfixable, hnewest, fun found hfound hsame => ?_⟩
  obtain ⟨turned, hpart, twin, htwin, hne, hpart'⟩ := hagain.mp ⟨found, hfound, hsame⟩
  exact halone k hk hk'.symm twin htwin (hk' ▸ hne) (hpart'.trans hpart.symm)

/-- The same line, vertical twice. -/
def uprightTwice : Sketch Float := (upright.addConstraint (.vertical ⟨2⟩)).2

/-- Without the newest member the line is still to be horizontal and vertical. -/
theorem exists_fixable_found_again :
    let reported := ((uprightTwice.conflicts (.answering []) .standard false).run ()).1
    ∃ conflict ∈ reported, conflict.autoFixable = true ∧ conflict.newest? = some ⟨1⟩ ∧
      ∃ found ∈ ((Operation.removeConstraint ⟨1⟩).apply uprightTwice).ruleConflicts .standard,
        found.subject = conflict.subject := by
  decide +kernel

end Sketch

end PlaneSketch
