import PlaneSketch.Proofs.Conflicts
import PlaneSketch.Proofs.Inactive
import PlaneSketch.Proofs.Reachable
import PlaneSketch.Proofs.Spread

/-!
# What an analysis finds

Redundant constraints (`find_redundant`), conflicts (`find_conflicts`) and suggestions (`suggest`)
are found among the active constraints, on trials of some of them. So two sketches with the same
active constraints give the same findings, as long as an active constraint is found under its id in
both: the texts of conflicts name constraints by label.
-/

namespace PlaneSketch

variable {α σ : Type} [Scalar α]

namespace Sketch

variable {s t : Sketch α}

/-! ### Redundancy -/

omit [Scalar α] in
theorem active_without (s : Sketch α) (ids : List ConstraintId) :
    (s.without ids).active = s.active.filter (·.id ∉ ids) := by
  show (s.constraints.map _).filter (·.isActive) =
    (s.constraints.filter (·.isActive)).filter (·.id ∉ ids)
  induction s.constraints with
  | nil => rfl
  | cons k rest ih =>
    have hoff : { k with enabled := false }.isActive = false := rfl
    rw [List.map_cons, List.filter_cons, List.filter_cons, ih]
    by_cases hk : k.id ∈ ids <;> cases hactive : k.isActive <;> simp [hk, hactive, hoff]

omit [Scalar α] in
theorem without_of_onlyActive (h : s.onlyActive = t.onlyActive) (ids : List ConstraintId) :
    (s.without ids).onlyActive = (t.without ids).onlyActive := by
  have hwithout (u : Sketch α) : (u.without ids).onlyActive =
      { u.onlyActive with constraints := u.onlyActive.constraints.filter (·.id ∉ ids) } := by
    show { u with constraints := (u.without ids).active } = _
    rw [active_without]
    rfl
  rw [hwithout, hwithout, h]

theorem spans_onlyActive (s : Sketch α) : s.onlyActive.spans = s.spans := by
  funext k tolerance
  unfold spans
  rw [slots_onlyActive, active_onlyActive]
  rfl

variable (h : s.onlyActive = t.onlyActive)

include h

theorem spans_of_onlyActive : s.spans = t.spans := by
  rw [← spans_onlyActive, h, spans_onlyActive]

omit [Scalar α] in
theorem touchedPoints_of_onlyActive : s.touchedPoints = t.touchedPoints := by
  have htouched : s.onlyActive.touchedPoints = t.onlyActive.touchedPoints := by rw [h]
  exact htouched

theorem errorOf_of_onlyActive : s.errorOf = t.errorOf := by
  have herror : s.onlyActive.errorOf = t.onlyActive.errorOf := by rw [h]
  exact herror

theorem redundancyReason_of_onlyActive {rest rest' : Sketch α}
    (hrest : rest.onlyActive = rest'.onlyActive) (k : Constraint α) :
    s.redundancyReason rest k = t.redundancyReason rest' k := by
  have hactive : rest.active = rest'.active := congrArg Sketch.constraints hrest
  unfold redundancyReason
  rw [touchedPoints_of_onlyActive h, touchedPoints_of_onlyActive hrest, hactive,
    freedom_of_onlyActive hrest]

variable (m : Minimizer α σ) (c : DiagnosisConfig α)

theorem isImplied_of_onlyActive (excluded : List ConstraintId) (k : Constraint α) :
    s.isImplied m c excluded k = t.isImplied m c excluded k := by
  have hwithout := without_of_onlyActive h (k.id :: excluded)
  refine (triedAlike_of_onlyActive hwithout).trial_bind ?_
  intro state trial
  have hfinished := finished_of_onlyActive hwithout trial.rounds
  dsimp only
  rw [errorOf_of_onlyActive hfinished, spans_of_onlyActive hfinished]

theorem redundantAmong_of_onlyActive (candidates : List (Constraint α))
    (excluded : List ConstraintId) :
    s.redundantAmong m c excluded candidates = t.redundantAmong m c excluded candidates := by
  induction candidates generalizing excluded with
  | nil => rfl
  | cons k older ih =>
    have hreason := redundancyReason_of_onlyActive h (without_of_onlyActive h (k.id :: excluded)) k
    simp only [redundantAmong, isImplied_of_onlyActive h, hreason, ih]

theorem redundancies_of_onlyActive : s.redundancies m c = t.redundancies m c := by
  have hactive : s.active = t.active := congrArg Sketch.constraints h
  have hcandidates : s.redundancyCandidates c = t.redundancyCandidates c := by
    unfold redundancyCandidates
    rw [← filter_takesFreedom_active, ← filter_takesFreedom_active, hactive]
  unfold redundancies
  rw [hcandidates, redundantAmong_of_onlyActive h]

/-! ### Labels -/

omit h in
/-- The sketches find the same constraint, if any, under each of some ids. -/
def FindsSame (s t : Sketch α) (ids : List ConstraintId) : Prop :=
  ∀ id ∈ ids, s.constraint? id = t.constraint? id

omit [Scalar α] in
theorem findsSame_of_onlyActive (hs : (s.constraints.map (·.id)).Nodup)
    (ht : (t.constraints.map (·.id)).Nodup) : s.FindsSame t (s.active.map (·.id)) := by
  intro id hid
  obtain ⟨k, hk, rfl⟩ := List.mem_map.mp hid
  have hactive : s.active = t.active := congrArg Sketch.constraints h
  rw [constraint?_of_mem_of_nodup hs (List.mem_of_mem_filter hk)]
  rw [hactive] at hk
  rw [constraint?_of_mem_of_nodup ht (List.mem_of_mem_filter hk)]

variable {ids : List ConstraintId} (hfound : s.FindsSame t ids)

omit [Scalar α] h in
include hfound in
theorem FindsSame.labelOf_eq {id : ConstraintId} (hid : id ∈ ids) :
    s.labelOf id = t.labelOf id := by
  simp only [labelOf, hfound id hid]

omit [Scalar α] h in
include hfound in
theorem FindsSame.labelsOf_eq {members : List ConstraintId} (hmembers : members ⊆ ids) :
    s.labelsOf members = t.labelsOf members := by
  unfold labelsOf
  rw [List.map_congr_left fun id hid => hfound.labelOf_eq (hmembers hid)]

end Sketch

/-! ### Conflicts -/

namespace Conflict

open Sketch

variable {s t : Sketch α} (h : s.onlyActive = t.onlyActive) {active : List (Constraint α)}
  (hfound : s.FindsSame t (active.map (·.id))) (tolerance : α)

theorem ascendingIds_subset (ids : List ConstraintId) : ascendingIds ids ⊆ ids :=
  fun _ hid => (mem_ascendingIds_iff ..).mp hid

include h hfound

theorem betweenTargets_of_onlyActive [NumberText α] :
    betweenTargets s active tolerance = betweenTargets t active tolerance := by
  have htargeting : targeting s active = targeting t active := by
    have hsame : targeting s.onlyActive active = targeting t.onlyActive active := by rw [h]
    exact hsame
  have hquantities : targetedQuantities s active = targetedQuantities t active := by
    have hsame : targetedQuantities s.onlyActive active =
        targetedQuantities t.onlyActive active := by rw [h]
    exact hsame
  unfold betweenTargets
  rw [hquantities]
  refine List.filterMap_congr ?_
  intro q _
  unfold ofQuantity?
  rw [htargeting]
  dsimp only
  split
  · rfl
  · cases hnewest : (ascendingIds ((targeting t active q).map (·.1.id))).getLast? with
    | none => rfl
    | some newest =>
      have hin : newest ∈ active.map (·.id) := by
        have hmember := ascendingIds_subset _ (List.mem_of_getLast? hnewest)
        obtain ⟨pair, hpair, rfl⟩ := List.mem_map.mp hmember
        exact List.mem_map_of_mem (mem_targeting_iff.mp hpair).1
      show some _ = some _
      rw [hfound.labelOf_eq hin]

omit hfound in
theorem withHeldPoints_of_onlyActive [NumberText α] (known : List Conflict) :
    withHeldPoints s active tolerance known = withHeldPoints t active tolerance known := by
  have hone (u : Sketch α) : withHeldPoints u.onlyActive active tolerance known =
      withHeldPoints u active tolerance known := by
    unfold withHeldPoints withHeld?
    rw [pins_onlyActive, applyPins_onlyActive]
    rfl
  rw [← hone, h, hone]

omit hfound in
theorem lengthening_of_onlyActive :
    lengthening s active tolerance = lengthening t active tolerance := by
  have hsame : lengthening s.onlyActive active tolerance =
      lengthening t.onlyActive active tolerance := by rw [h]
  exact hsame

omit [Scalar α] h in
theorem collapse_of_findsSame (subject : Subject) (members : List ConstraintId)
    {first second : Constraint α} (hfirst : first ∈ active) (hsecond : second ∈ active)
    (severity : Severity) (explanation : String) :
    collapse s subject members first.id second.id severity explanation =
      collapse t subject members first.id second.id severity explanation := by
  unfold collapse
  dsimp only
  split
  · rw [hfound.labelOf_eq (List.mem_map_of_mem hsecond)]
  · rw [hfound.labelOf_eq (List.mem_map_of_mem hfirst)]

theorem ofCollapsedLine?_of_onlyActive (line : LineId) :
    ofCollapsedLine? s active tolerance line = ofCollapsedLine? t active tolerance line := by
  unfold ofCollapsedLine?
  rw [lengthening_of_onlyActive h]
  refine Option.bind_congr fun level hlevel => ?_
  refine Option.bind_congr fun upright hupright => ?_
  simp only [collapse_of_findsSame hfound _ _ (List.mem_of_find?_eq_some hlevel)
    (List.mem_of_find?_eq_some hupright)]

theorem withPerpendicular_of_onlyActive {k : Constraint α} (hk : k ∈ active) :
    withPerpendicular s active tolerance k = withPerpendicular t active tolerance k := by
  unfold withPerpendicular
  split
  · refine List.filterMap_congr ?_
    intro other hother
    unfold ofCrossedLines
    simp only [lengthening_of_onlyActive h, collapse_of_findsSame hfound _ _ hk hother]
  · rfl

theorem byCollapse_of_onlyActive :
    byCollapse s active tolerance = byCollapse t active tolerance := by
  have hlines : s.lines = t.lines := by
    have hsame : s.onlyActive.lines = t.onlyActive.lines := by rw [h]
    exact hsame
  unfold byCollapse
  rw [hlines, List.flatMap_congr fun k hk => withPerpendicular_of_onlyActive h hfound tolerance hk]
  simp only [ofCollapsedLine?_of_onlyActive h hfound]

/-! ### Axes -/

omit [Scalar α] h hfound in
/-- The axes are there because of constraints with some ids. -/
def StemFrom (axes : Axes) (ids : List ConstraintId) : Prop := ∀ pair ∈ axes, pair.2.because ⊆ ids

end Conflict

namespace Conflict

open Sketch

variable {active : List (Constraint α)} {axes : Axes} {ids : List ConstraintId}

omit [Scalar α] in
theorem StemFrom.because_subset (h : StemFrom axes ids) {line : LineId} {oriented : Oriented}
    (hline : axes.lookup line = some oriented) : oriented.because ⊆ ids := by
  obtain ⟨_, _, rfl, -⟩ := List.lookup_eq_some_iff.mp hline
  exact h (line, oriented) (List.mem_append_right _ (List.mem_cons_self ..))

omit [Scalar α] in
theorem stemFrom_givenAxes (active : List (Constraint α)) :
    StemFrom (givenAxes active) (active.map (·.id)) := by
  have hnone : StemFrom [] (active.map (·.id)) := fun _ hpair => nomatch hpair
  refine List.foldlRecOn (motive := (StemFrom · (active.map (·.id)))) _ _ hnone ?_
  rintro axes haxes ⟨line, oriented⟩ hgiven
  obtain ⟨k, hk, hof⟩ := List.mem_filterMap.mp hgiven
  have hbecause : oriented.because = [k.id] := by
    unfold axisOf? at hof
    split at hof <;> cases hof <;> rfl
  dsimp only
  split
  · exact haxes
  · intro pair hpair
    rcases List.mem_append.mp hpair with hold | hnew
    · exact haxes pair hold
    · rw [List.mem_singleton.mp hnew, hbecause]
      exact List.cons_subset.mpr ⟨List.mem_map_of_mem hk, List.nil_subset _⟩

omit [Scalar α] in
theorem StemFrom.spreadAxes (h : StemFrom axes ids) {links : List (AxisLink α)}
    (hlinks : ∀ link ∈ links, link.id ∈ ids) : StemFrom (spreadAxes links axes) ids := by
  refine spreadAxes_induction (motive := (StemFrom · ids)) ?_ h
  intro axes link known line source handed haxes hlink hands pair hpair
  rcases List.mem_append.mp hpair with hold | hnew
  · exact haxes pair hold
  · rw [List.mem_singleton.mp hnew, hands.because]
    intro id hid
    rcases (mem_insertAscending_iff ConstraintId.eq_of_lt_eq_false ..).mp hid with rfl | hid
    · exact hlinks link hlink
    · exact haxes.because_subset hands.lookup_known hid

theorem ofAxes_of_findsSame {s t : Sketch α} (hfound : s.FindsSame t (active.map (·.id))) :
    ofAxes s active = ofAxes t active := by
  have hlinks : ∀ link ∈ active.filterMap linkOf?, link.id ∈ active.map (·.id) := by
    intro link hlink
    obtain ⟨k, hk, hof⟩ := List.mem_filterMap.mp hlink
    have hid : link.id = k.id := by
      unfold linkOf? at hof
      split at hof <;> cases hof <;> rfl
    rw [hid]
    exact List.mem_map_of_mem hk
  have hspread := (stemFrom_givenAxes active).spreadAxes hlinks
  unfold ofAxes
  refine List.filterMap_congr ?_
  intro link hlink
  unfold ofLink?
  refine Option.bind_congr fun a ha => ?_
  refine Option.bind_congr fun b hb => ?_
  have hmembers : ascendingIds (a.because ++ b.because ++ [link.id]) ⊆ active.map (·.id) := by
    refine List.Subset.trans (ascendingIds_subset _) ?_
    refine List.append_subset.mpr ⟨List.append_subset.mpr ?_, ?_⟩
    · exact ⟨hspread.because_subset ha, hspread.because_subset hb⟩
    · exact List.cons_subset.mpr ⟨hlinks link hlink, List.nil_subset _⟩
  simp only [hfound.labelsOf_eq hmembers]

end Conflict

/-! ### All rules -/

namespace Sketch

variable {s t : Sketch α}

theorem validActive_eq_filter (s : Sketch α) : s.validActive = s.active.filter (·.isValid s) := by
  unfold validActive active
  rw [List.filter_filter]
  exact List.filter_congr fun k _ => Bool.and_comm _ _

theorem validActive_of_onlyActive (h : s.onlyActive = t.onlyActive) :
    s.validActive = t.validActive := by
  rw [validActive_eq_filter, validActive_eq_filter]
  exact congrArg (fun u => u.constraints.filter (·.isValid u)) h

theorem validActive_ids_subset (s : Sketch α) :
    s.validActive.map (·.id) ⊆ s.active.map (·.id) := by
  rw [validActive_eq_filter]
  exact (List.filter_sublist.map _).subset

omit [Scalar α] in
theorem FindsSame.mono {ids some : List ConstraintId} (h : s.FindsSame t ids) (hsome : some ⊆ ids) :
    s.FindsSame t some :=
  fun id hid => h id (hsome hid)

theorem ruleConflicts_of_onlyActive [NumberText α] (h : s.onlyActive = t.onlyActive)
    (hfound : s.FindsSame t (s.active.map (·.id))) (c : DiagnosisConfig α) :
    s.ruleConflicts c = t.ruleConflicts c := by
  have hvalid := hfound.mono s.validActive_ids_subset
  rw [validActive_of_onlyActive h] at hvalid
  unfold ruleConflicts
  simp only [validActive_of_onlyActive h, Conflict.betweenTargets_of_onlyActive h hvalid,
    Conflict.withHeldPoints_of_onlyActive h, Conflict.byCollapse_of_onlyActive h hvalid,
    Conflict.ofAxes_of_findsSame hvalid]

end Sketch

end PlaneSketch
