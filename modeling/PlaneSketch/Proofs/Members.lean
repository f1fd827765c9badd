import PlaneSketch.Proofs.Invisible

/-!
# Members of conflicts

Which constraints are members of the conflicts of each rule, and which are not. Conflicting targets
are about one quantity, all members of a conflict with held points but one hold a point, a collapse
has one pair that cannot hold, and a conflict of axes comes from constraints that put lines on an
axis.
-/

namespace PlaneSketch

variable {α σ : Type}

/-! ### Kinds of constraints -/

namespace Constraint

/-- Whether the constraint puts a line on an axis. -/
def setsAxis (k : Constraint α) : Bool :=
  match k.requirement with
  | .horizontal _ | .vertical _ => true
  | _ => false

/-- Whether the constraint relates the directions of two lines. -/
def relatesLines (k : Constraint α) : Bool :=
  match k.requirement with
  | .parallel .. | .perpendicular .. | .angle .. => true
  | _ => false

theorem of_setsAxis [Scalar α] (s : Sketch α) {k : Constraint α} (h : k.setsAxis = true) :
    s.target? k.requirement = none ∧ k.requirement.isFixed = false ∧ k.relatesLines = false := by
  unfold setsAxis at h
  split at h
  next heq => rw [relatesLines, heq]; exact ⟨rfl, rfl, rfl⟩
  next heq => rw [relatesLines, heq]; exact ⟨rfl, rfl, rfl⟩
  next => cases h

theorem isFixed_of_relatesLines {k : Constraint α} (h : k.relatesLines = true) :
    k.requirement.isFixed = false := by
  unfold relatesLines at h
  split at h
  next heq => rw [heq]; rfl
  next heq => rw [heq]; rfl
  next heq => rw [heq]; rfl
  next => cases h

end Constraint

theorem Requirement.isFixed_of_fixesOneOf {points : List PointId} {r : Requirement α}
    (h : r.fixesOneOf points = true) : r.isFixed = true := by
  unfold fixesOneOf at h
  split at h
  next => rfl
  next => cases h

namespace Conflict

open Sketch

variable [Scalar α] {s : Sketch α} {active : List (Constraint α)} {tolerance : α}
  {conflict : Conflict}

/-! ### Targets -/

theorem ofQuantity?_members [NumberText α] {q : Quantity}
    (h : ofQuantity? s active tolerance q = some conflict) :
    conflict.severity = .critical ∧ conflict.members ≠ [] ∧
      ∀ id ∈ conflict.members, ∃ k ∈ active, k.id = id ∧
        (s.target? k.requirement).map (·.1) = some q := by
  obtain ⟨-, -, hcritical, hmembers, newest, hnewest, -⟩ := of_ofQuantity? h
  refine ⟨hcritical, List.ne_nil_of_mem (List.mem_of_getLast? hnewest), ?_⟩
  intro id hid
  rw [hmembers, mem_ascendingIds_iff] at hid
  obtain ⟨pair, hpair, rfl⟩ := List.mem_map.mp hid
  obtain ⟨hactive, htarget⟩ := mem_targeting_iff.mp hpair
  exact ⟨pair.1, hactive, rfl, by rw [htarget]; rfl⟩

/-! ### Held points -/

theorem withHeld?_members [NumberText α] {held : Sketch α} {k : Constraint α}
    (h : withHeld? s held active tolerance k = some conflict) :
    conflict.subject = .held k.id ∧ k.id ∈ conflict.members ∧
      ∀ id ∈ conflict.members, id = k.id ∨ ∃ holder ∈ active, holder.id = id ∧
        holder.requirement.fixesOneOf (s.touchedPoints k.requirement) = true := by
  obtain ⟨-, -, -, hsubject, hmembers, -⟩ := of_withHeld? h
  simp only [hmembers, mem_ascendingIds_iff]
  refine ⟨hsubject, List.mem_append_right _ (List.mem_singleton_self _), ?_⟩
  intro id hid
  rcases List.mem_append.mp hid with hholder | hself
  · obtain ⟨holder, hmem, rfl⟩ := List.mem_map.mp hholder
    obtain ⟨hactive, hfixes⟩ := List.mem_filter.mp hmem
    exact Or.inr ⟨holder, hactive, rfl, hfixes⟩
  · exact Or.inl (List.mem_singleton.mp hself)

/-! ### Collapse -/

theorem kinds_of_mem_lengthening {line : LineId} {k : Constraint α}
    (h : k ∈ lengthening s active tolerance line) :
    k ∈ active ∧ k.setsAxis = false ∧ k.relatesLines = false := by
  refine ⟨(target?_of_mem_lengthening h).1, ?_⟩
  unfold lengthening at h
  split at h
  next => cases h
  next =>
    have hasks := (List.mem_filter.mp h).2
    split at hasks
    next heq => rw [Constraint.setsAxis, Constraint.relatesLines, heq]; exact ⟨rfl, rfl⟩
    next heq => rw [Constraint.setsAxis, Constraint.relatesLines, heq]; exact ⟨rfl, rfl⟩
    next => cases hasks

theorem mem_byCollapse (h : conflict ∈ byCollapse s active tolerance) :
    (∃ line, ofCollapsedLine? s active tolerance line = some conflict) ∨
      ∃ parallel ∈ active, conflict ∈ withPerpendicular s active tolerance parallel := by
  rcases List.mem_append.mp h with hline | hlines
  · obtain ⟨line, -, hfound⟩ := List.mem_filterMap.mp hline
    exact Or.inl ⟨line.id, hfound⟩
  · exact Or.inr (List.mem_flatMap.mp hlines)

/-- What a constraint in a conflict of a collapsed line can be. -/
theorem of_mem_collapsedLine (hids : (active.map (·.id)).Nodup) {line : LineId}
    (h : ofCollapsedLine? s active tolerance line = some conflict) {k : Constraint α}
    (hk : k ∈ active) (hmember : k.id ∈ conflict.members) :
    k.requirement = .horizontal line ∨ k.requirement = .vertical line ∨
      k.setsAxis = false ∧ k.relatesLines = false := by
  obtain ⟨level, hlevel, upright, hupright, hhorizontal, hvertical, hmembers, -⟩ :=
    ofCollapsedLine?_members h
  rcases (hmembers k.id).mp hmember with hsame | hsame | ⟨other, hother, hsame⟩
  · rw [List.inj_on_of_nodup_map hids hk hlevel hsame]
    exact Or.inl hhorizontal
  · rw [List.inj_on_of_nodup_map hids hk hupright hsame]
    exact Or.inr (Or.inl hvertical)
  · obtain ⟨hactive, hkinds⟩ := kinds_of_mem_lengthening hother
    rw [List.inj_on_of_nodup_map hids hk hactive hsame.symm]
    exact Or.inr (Or.inr hkinds)

/-- What a constraint in a conflict of crossed lines can be. -/
theorem of_mem_crossedLines (hids : (active.map (·.id)).Nodup)
    {parallel perpendicular : Constraint α} (hparallel : parallel ∈ active)
    (hperpendicular : perpendicular ∈ active) {line line' : LineId} {k : Constraint α}
    (hk : k ∈ active) (hmember : k.id ∈
      (ofCrossedLines s active tolerance parallel perpendicular line line').members) :
    k = parallel ∨ k = perpendicular ∨ k.setsAxis = false ∧ k.relatesLines = false := by
  obtain ⟨-, -, hmembers⟩ :=
    ofCrossedLines_members s active tolerance parallel perpendicular line line'
  rcases hmembers k.id hmember with hsame | hsame | ⟨_, other, hother, hsame⟩
  · exact Or.inl (List.inj_on_of_nodup_map hids hk hparallel hsame)
  · exact Or.inr (Or.inl (List.inj_on_of_nodup_map hids hk hperpendicular hsame))
  · obtain ⟨hactive, hkinds⟩ := kinds_of_mem_lengthening hother
    rw [List.inj_on_of_nodup_map hids hk hactive hsame.symm]
    exact Or.inr (Or.inr hkinds)

theorem relatesLines_of_mem_collapsedLine (hids : (active.map (·.id)).Nodup) {line : LineId}
    (h : ofCollapsedLine? s active tolerance line = some conflict) {k : Constraint α}
    (hk : k ∈ active) (hmember : k.id ∈ conflict.members) : k.relatesLines = false := by
  rcases of_mem_collapsedLine hids h hk hmember with heq | heq | ⟨-, hrelates⟩
  · rw [Constraint.relatesLines, heq]
  · rw [Constraint.relatesLines, heq]
  · exact hrelates

theorem setsAxis_of_mem_crossedLines (hids : (active.map (·.id)).Nodup)
    {parallel : Constraint α} (hparallel : parallel ∈ active)
    (h : conflict ∈ withPerpendicular s active tolerance parallel) {k : Constraint α}
    (hk : k ∈ active) (hmember : k.id ∈ conflict.members) : k.setsAxis = false := by
  obtain ⟨_, _, _, _, perpendicular, hperpendicular, -, heq, heq', rfl⟩ := mem_withPerpendicular h
  rcases of_mem_crossedLines hids hparallel hperpendicular hk hmember with rfl | rfl | ⟨hsets, -⟩
  · rw [Constraint.setsAxis, heq]
  · rw [Constraint.setsAxis, heq']
  · exact hsets

/-! ### Axes -/

omit [Scalar α] in
theorem of_linkOf? {k : Constraint α} {link : AxisLink α} (h : linkOf? k = some link) :
    k.relatesLines = true ∧ k.id = link.id := by
  unfold linkOf? at h
  split at h
  next heq =>
    cases h
    exact ⟨by rw [Constraint.relatesLines, heq], rfl⟩
  next heq =>
    cases h
    exact ⟨by rw [Constraint.relatesLines, heq], rfl⟩
  next heq =>
    cases h
    exact ⟨by rw [Constraint.relatesLines, heq], rfl⟩
  next => cases h

omit [Scalar α] in
theorem exists_of_mem_links {link : AxisLink α} (h : link ∈ active.filterMap linkOf?) :
    ∃ k ∈ active, k.relatesLines = true ∧ k.id = link.id ∧ linkOf? k = some link := by
  obtain ⟨k, hk, hof⟩ := List.mem_filterMap.mp h
  obtain ⟨hrelates, hid⟩ := of_linkOf? hof
  exact ⟨k, hk, hrelates, hid, hof⟩

/-- The lines of the link have axes, and the relation holds between them. -/
def HoldsIn (axes : Axes) (link : AxisLink α) : Prop :=
  ∃ a b, axes.lookup link.first = some a ∧ axes.lookup link.second = some b ∧
    AxisRelation.holds link.relation a.axis b.axis = true

/-- Every axis is there because of a constraint that puts a line on an axis and otherwise of links
that hold. -/
structure Justified (active : List (Constraint α)) (axes : Axes) : Prop where
  exists_setsAxis : ∀ line oriented, axes.lookup line = some oriented →
    ∃ k ∈ active, k.setsAxis = true ∧ k.id ∈ oriented.because
  of_mem : ∀ line oriented, axes.lookup line = some oriented → ∀ id ∈ oriented.because,
    (∃ k ∈ active, k.setsAxis = true ∧ k.id = id) ∨
      ∃ link ∈ active.filterMap linkOf?, link.id = id ∧ HoldsIn axes link

variable {axes : Axes} {line : LineId} {oriented : Oriented}

theorem HoldsIn.append {link : AxisLink α} (h : HoldsIn axes link) (more : Axes) :
    HoldsIn (axes ++ more) link := by
  obtain ⟨a, b, ha, hb, hholds⟩ := h
  exact ⟨a, b, lookup_append_of_eq_some more ha, lookup_append_of_eq_some more hb, hholds⟩

theorem Justified.append (h : Justified active axes)
    (hsets : ∃ k ∈ active, k.setsAxis = true ∧ k.id ∈ oriented.because)
    (hbecause : ∀ id ∈ oriented.because, (∃ k ∈ active, k.setsAxis = true ∧ k.id = id) ∨
      ∃ link ∈ active.filterMap linkOf?, link.id = id ∧
        HoldsIn (axes ++ [(line, oriented)]) link) :
    Justified active (axes ++ [(line, oriented)]) := by
  constructor
  · intro line' oriented' hlookup
    rcases lookup_append_cases hlookup with hold | ⟨-, rfl⟩
    · exact h.exists_setsAxis _ _ hold
    · exact hsets
  · intro line' oriented' hlookup id hid
    rcases lookup_append_cases hlookup with hold | ⟨-, rfl⟩
    · rcases h.of_mem _ _ hold id hid with hk | ⟨link, hlink, hsame, hholds⟩
      · exact Or.inl hk
      · exact Or.inr ⟨link, hlink, hsame, hholds.append _⟩
    · exact hbecause id hid

omit [Scalar α] in
theorem of_axisOf? {k : Constraint α} (h : axisOf? k = some (line, oriented)) :
    k.setsAxis = true ∧ oriented.because = [k.id] := by
  unfold axisOf? at h
  split at h
  next heq =>
    cases h
    exact ⟨by rw [Constraint.setsAxis, heq], rfl⟩
  next heq =>
    cases h
    exact ⟨by rw [Constraint.setsAxis, heq], rfl⟩
  next => cases h

theorem justified_givenAxes (active : List (Constraint α)) :
    Justified active (givenAxes active) := by
  have hnone : Justified active [] := ⟨nofun, nofun⟩
  refine List.foldlRecOn (motive := Justified active) _ _ hnone ?_
  rintro axes haxes ⟨line, oriented⟩ hgiven
  obtain ⟨k, hk, hof⟩ := List.mem_filterMap.mp hgiven
  obtain ⟨hsets, hbecause⟩ := of_axisOf? hof
  dsimp only
  split
  · exact haxes
  · refine haxes.append ⟨k, hk, hsets, ?_⟩ ?_
    · rw [hbecause]
      exact List.mem_singleton_self _
    · intro id hid
      rw [hbecause] at hid
      exact Or.inl ⟨k, hk, hsets, (List.mem_singleton.mp hid).symm⟩

/-- A link that hands an axis on holds from then on. -/
theorem HandsOn.holdsIn {link : AxisLink α} {known : LineId} {source handed : Oriented}
    (h : HandsOn axes link known line source handed) :
    HoldsIn (axes ++ [(line, handed)]) link := by
  have hknown := lookup_append_of_eq_some [(line, handed)] h.lookup_known
  have hline := lookup_append_self h.lookup_line handed
  have hrelation : AxisRelation.holds link.relation source.axis handed.axis = true ∧
      AxisRelation.holds link.relation handed.axis source.axis = true := by
    rcases h.axis with ⟨hsame, haxis⟩ | ⟨hturned, haxis⟩
    · rw [hsame, haxis]
      exact ⟨decide_eq_true rfl, decide_eq_true rfl⟩
    · rw [hturned, haxis]
      cases source.axis <;> exact ⟨rfl, rfl⟩
  rcases h.ends with ⟨rfl, rfl⟩ | ⟨rfl, rfl⟩
  · exact ⟨source, handed, hknown, hline, hrelation.1⟩
  · exact ⟨handed, source, hline, hknown, hrelation.2⟩

theorem Justified.spreadAxes (h : Justified active axes) :
    Justified active (spreadAxes (active.filterMap linkOf?) axes) := by
  refine spreadAxes_induction (motive := Justified active) ?_ h
  intro axes link known line source handed haxes hlink hands
  have hmem (id : ConstraintId) : id ∈ handed.because ↔ id = link.id ∨ id ∈ source.because := by
    rw [hands.because]
    exact mem_insertAscending_iff ConstraintId.eq_of_lt_eq_false ..
  refine haxes.append ?_ ?_
  · obtain ⟨k, hk, hsets, hin⟩ := haxes.exists_setsAxis _ _ hands.lookup_known
    exact ⟨k, hk, hsets, (hmem _).mpr (Or.inr hin)⟩
  · intro id hid
    rcases (hmem id).mp hid with rfl | hin
    · exact Or.inr ⟨link, hlink, rfl, hands.holdsIn⟩
    · rcases haxes.of_mem _ _ hands.lookup_known id hin with hk | ⟨other, hother, hsame, hholds⟩
      · exact Or.inl hk
      · exact Or.inr ⟨other, hother, hsame, hholds.append _⟩

/-- The axes of all lines that the constraints put on one, directly or through links. -/
def reachedAxes (active : List (Constraint α)) : Axes :=
  spreadAxes (active.filterMap linkOf?) (givenAxes active)

theorem justified_reachedAxes (active : List (Constraint α)) :
    Justified active (reachedAxes active) :=
  (justified_givenAxes active).spreadAxes

theorem ofLink?_members {link : AxisLink α} (h : ofLink? s axes link = some conflict) :
    ¬HoldsIn axes link ∧ ∃ a b, axes.lookup link.first = some a ∧
      axes.lookup link.second = some b ∧
      ∀ id, id ∈ conflict.members ↔ id ∈ a.because ∨ id ∈ b.because ∨ id = link.id := by
  obtain ⟨a, ha, h⟩ := Option.bind_eq_some_iff.mp h
  obtain ⟨b, hb, h⟩ := Option.bind_eq_some_iff.mp h
  split at h
  next => cases h
  next hcontradicts =>
    cases h
    refine ⟨?_, a, b, ha, hb, ?_⟩
    · rintro ⟨a', b', ha', hb', hholds⟩
      obtain rfl := Option.some.inj (ha.symm.trans ha')
      obtain rfl := Option.some.inj (hb.symm.trans hb')
      exact hcontradicts hholds
    · intro id
      simp only [mem_ascendingIds_iff, List.mem_append, List.mem_singleton, or_assoc]

/-- A conflict of axes is about a link that does not hold. Its other members put lines on axes or
are links that hold, and at least one puts a line on an axis. -/
theorem ofAxes_members (h : conflict ∈ ofAxes s active) :
    ∃ link ∈ active.filterMap linkOf?, ofLink? s (reachedAxes active) link = some conflict ∧
      ¬HoldsIn (reachedAxes active) link ∧ link.id ∈ conflict.members ∧
      (∃ k ∈ active, k.setsAxis = true ∧ k.id ∈ conflict.members) ∧
      ∀ id ∈ conflict.members, (∃ k ∈ active, k.setsAxis = true ∧ k.id = id) ∨
        (∃ other ∈ active.filterMap linkOf?, other.id = id ∧
          HoldsIn (reachedAxes active) other) ∨ id = link.id := by
  obtain ⟨link, hlink, hof⟩ := List.mem_filterMap.mp h
  obtain ⟨hcontradicts, a, b, ha, hb, hmembers⟩ := ofLink?_members hof
  have haxes := justified_reachedAxes active
  refine ⟨link, hlink, hof, hcontradicts, (hmembers _).mpr (Or.inr (Or.inr rfl)), ?_, ?_⟩
  · obtain ⟨k, hk, hsets, hin⟩ := haxes.exists_setsAxis _ _ ha
    exact ⟨k, hk, hsets, (hmembers _).mpr (Or.inl hin)⟩
  · intro id hid
    rcases (hmembers id).mp hid with hin | hin | hself
    · exact (haxes.of_mem _ _ ha id hin).imp_right Or.inl
    · exact (haxes.of_mem _ _ hb id hin).imp_right Or.inl
    · exact Or.inr (Or.inr hself)

/-! ### Members are active constraints -/

theorem members_subset_of_targets [NumberText α]
    (h : conflict ∈ betweenTargets s active tolerance) :
    conflict.members ⊆ active.map (·.id) := by
  obtain ⟨q, -, hq⟩ := List.mem_filterMap.mp h
  intro id hid
  obtain ⟨k, hk, rfl, -⟩ := (ofQuantity?_members hq).2.2 id hid
  exact List.mem_map_of_mem hk

theorem members_subset_of_held [NumberText α] {known : List Conflict}
    (h : conflict ∈ withHeldPoints s active tolerance known) :
    conflict.members ⊆ active.map (·.id) := by
  obtain ⟨k, hk, -, hheld⟩ := exists_withHeld? h
  intro id hid
  rcases (withHeld?_members hheld).2.2 id hid with rfl | ⟨holder, hholder, rfl, -⟩
  · exact List.mem_map_of_mem hk
  · exact List.mem_map_of_mem hholder

theorem members_subset_of_collapse (h : conflict ∈ byCollapse s active tolerance) :
    conflict.members ⊆ active.map (·.id) := by
  have hlong {line : LineId} {k : Constraint α} (hk : k ∈ lengthening s active tolerance line) :
      k.id ∈ active.map (·.id) :=
    List.mem_map_of_mem (kinds_of_mem_lengthening hk).1
  intro id hid
  rcases mem_byCollapse h with ⟨line, hfound⟩ | ⟨parallel, hparallel, hfound⟩
  · obtain ⟨level, hlevel, upright, hupright, -, -, hmembers, -⟩ := ofCollapsedLine?_members hfound
    rcases (hmembers id).mp hid with rfl | rfl | ⟨k, hk, rfl⟩
    · exact List.mem_map_of_mem hlevel
    · exact List.mem_map_of_mem hupright
    · exact hlong hk
  · obtain ⟨k, l, m, n, perpendicular, hperpendicular, -, -, -, rfl⟩ := mem_withPerpendicular hfound
    obtain ⟨-, -, hmembers⟩ :=
      ofCrossedLines_members s active tolerance parallel perpendicular k l
    rcases hmembers id hid with rfl | rfl | ⟨line, k, hk, rfl⟩
    · exact List.mem_map_of_mem hparallel
    · exact List.mem_map_of_mem hperpendicular
    · exact hlong hk

theorem members_subset_of_axes (h : conflict ∈ ofAxes s active) :
    conflict.members ⊆ active.map (·.id) := by
  have hlinks {link : AxisLink α} (hlink : link ∈ active.filterMap linkOf?) :
      link.id ∈ active.map (·.id) := by
    obtain ⟨k, hk, -, hid, -⟩ := exists_of_mem_links hlink
    exact hid ▸ List.mem_map_of_mem hk
  obtain ⟨link, hlink, -, -, -, -, hmembers⟩ := ofAxes_members h
  intro id hid
  rcases hmembers id hid with ⟨k, hk, -, rfl⟩ | ⟨other, hother, rfl, -⟩ | rfl
  · exact List.mem_map_of_mem hk
  · exact hlinks hother
  · exact hlinks hlink

theorem unsatisfied_trial_subset (s : Sketch α) (m : Minimizer α σ) (c : SolveConfig α)
    (state : σ) :
    unsatisfied s.validActive c.maxErrorTolerance ((s.trial m c).run state).1 ⊆
      s.active.map (·.id) :=
  unsatisfied_subset s.validActive_ids_subset (fun _ hid => mem_of_worst_trial hid) _

theorem members_subset_of_bySolving? {m : Minimizer α σ} {c : DiagnosisConfig α} {state : σ}
    (h : ((bySolving? s s.validActive m c).run state).1 = some conflict) :
    conflict.members ⊆ s.active.map (·.id) := by
  have hids := unsatisfied_trial_subset s m c.solver state
  have hconnected := connectedTo_subset (s := s) s.validActive_ids_subset hids
  rcases bySolving?_cases h with rfl | ⟨-, state', -, rfl⟩
  · exact List.Subset.trans (ascendingIds_subset _) hids
  · refine List.Subset.trans (ascendingIds_subset _) (List.Subset.trans ?_ hconnected)
    exact shrink_subset s m c _ _ state'

end Conflict

namespace Sketch

open Conflict

variable [Scalar α] [NumberText α] {s : Sketch α} {c : DiagnosisConfig α} {conflict : Conflict}

theorem members_subset_of_mem_ruleConflicts (h : conflict ∈ s.ruleConflicts c) :
    conflict.members ⊆ s.validActive.map (·.id) := by
  rcases ruleConflicts_cases h with htargets | ⟨known, hheld⟩ | hcollapse | haxes
  · exact members_subset_of_targets htargets
  · exact members_subset_of_held hheld
  · exact members_subset_of_collapse hcollapse
  · exact members_subset_of_axes haxes

theorem members_subset_of_mem_conflicts {m : Minimizer α σ} {numeric : Bool} {state : σ}
    (h : conflict ∈ ((s.conflicts m c numeric).run state).1) :
    conflict.members ⊆ s.active.map (·.id) := by
  rcases mem_conflicts_cases h with hrule | ⟨-, hsolved⟩
  · exact List.Subset.trans (members_subset_of_mem_ruleConflicts hrule) s.validActive_ids_subset
  · exact members_subset_of_bySolving? hsolved

end Sketch

end PlaneSketch
