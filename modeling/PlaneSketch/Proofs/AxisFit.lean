import Mathlib.Data.List.Induction
import PlaneSketch.Proofs.Members

/-!
# Lines on axes

The search for conflicts of axes (`axis_conflicts`) decides whether lines can be put on axes. Every
line that constraints put on an axis, directly or through others, gets an axis, and no other axis
would do. So there is no conflict exactly if the constraints between these lines fit, and where
there is one, its members do not fit on their own.
-/

namespace PlaneSketch

variable {α : Type} [Scalar α]

namespace Conflict

/-! ### Lines that have to be on an axis -/

/-- Constraints put the line on an axis: a horizontal or vertical one directly, a parallel or
perpendicular one as soon as the other line is on an axis. -/
inductive IsOriented (part : List (Constraint α)) : LineId → Prop
  | set {k : Constraint α} {line : LineId} (hk : k ∈ part)
    (h : k.requirement = .horizontal line ∨ k.requirement = .vertical line) :
    IsOriented part line
  | forth {k : Constraint α} {a b : LineId} (hk : k ∈ part)
    (h : k.requirement = .parallel a b ∨ k.requirement = .perpendicular a b)
    (known : IsOriented part a) : IsOriented part b
  | back {k : Constraint α} {a b : LineId} (hk : k ∈ part)
    (h : k.requirement = .parallel a b ∨ k.requirement = .perpendicular a b)
    (known : IsOriented part b) : IsOriented part a

end Conflict

/-- Whether a requirement holds between lines on these axes, as far as it is about axes. -/
def Requirement.FitsOn (axis : LineId → Axis) : Requirement α → Prop
  | .horizontal line => axis line = .x
  | .vertical line => axis line = .y
  | .parallel a b => axis b = axis a
  | .perpendicular a b => axis b = (axis a).other
  | .angle a b degrees =>
    (axis a = axis b → Conflict.isNear degrees 0.0 ∨ Conflict.isNear degrees 180.0) ∧
    (axis a ≠ axis b → Conflict.isNear degrees 90.0)
  | _ => True

namespace Conflict

/-- On these axes all requirements hold between lines that have to be on an axis. -/
def FitsOn (part : List (Constraint α)) (axis : LineId → Axis) : Prop :=
  ∀ k ∈ part, (∀ line, .line line ∈ k.requirement.references → IsOriented part line) →
    k.requirement.FitsOn axis

/-- The lines can be put on axes. -/
def Fits (part : List (Constraint α)) : Prop := ∃ axis, FitsOn part axis

variable {s : Sketch α} {active part : List (Constraint α)} {axes : Axes} {line : LineId}
  {oriented : Oriented} {axis : LineId → Axis}

theorem eq_other_iff (a b : Axis) : b = a.other ↔ a ≠ b := by
  cases a <;> cases b <;> decide

/-- A link says of its two lines what the constraint says that it comes from. -/
theorem fitsOn_iff_holds {k : Constraint α} {link : AxisLink α} (h : linkOf? k = some link)
    (axis : LineId → Axis) :
    k.requirement.FitsOn axis ↔
      AxisRelation.holds link.relation (axis link.first) (axis link.second) = true := by
  unfold linkOf? at h
  split at h
  next heq =>
    cases h
    rw [heq]
    simp only [Requirement.FitsOn, AxisRelation.holds, decide_eq_true_eq]
    exact eq_comm
  next heq =>
    cases h
    rw [heq]
    simp only [Requirement.FitsOn, AxisRelation.holds, decide_eq_true_eq]
    exact eq_other_iff ..
  next a b degrees heq =>
    cases h
    rw [heq]
    simp only [Requirement.FitsOn, AxisRelation.holds]
    by_cases hsame : axis a = axis b <;> simp [hsame]
  next => cases h

omit [Scalar α] in
theorem references_of_linkOf? {k : Constraint α} {link : AxisLink α} (h : linkOf? k = some link) :
    k.requirement.references = [.line link.first, .line link.second] := by
  unfold linkOf? at h
  split at h
  next heq => cases h; rw [heq]; rfl
  next heq => cases h; rw [heq]; rfl
  next heq => cases h; rw [heq]; rfl
  next => cases h

omit [Scalar α] in
theorem linkOf?_cases {k : Constraint α} {link : AxisLink α} (h : linkOf? k = some link) :
    (link.relation = .same → k.requirement = .parallel link.first link.second) ∧
    (link.relation = .turned → k.requirement = .perpendicular link.first link.second) := by
  unfold linkOf? at h
  split at h
  next heq => cases h; exact ⟨fun _ => heq, nofun⟩
  next heq => cases h; exact ⟨nofun, fun _ => heq⟩
  next => cases h; exact ⟨nofun, nofun⟩
  next => cases h

omit [Scalar α] in
theorem axisOf?_cases {k : Constraint α} (h : axisOf? k = some (line, oriented)) :
    k.requirement = .horizontal line ∧ oriented.axis = .x ∨
      k.requirement = .vertical line ∧ oriented.axis = .y := by
  unfold axisOf? at h
  split at h
  next heq => cases h; exact Or.inl ⟨heq, rfl⟩
  next heq => cases h; exact Or.inr ⟨heq, rfl⟩
  next => cases h

omit [Scalar α] in
theorem exists_linkOf? {k : Constraint α} {a b : LineId}
    (h : k.requirement = .parallel a b ∨ k.requirement = .perpendicular a b) :
    ∃ relation : AxisRelation α, linkOf? k = some ⟨a, b, relation, k.id⟩ ∧
      ∀ degrees, relation ≠ .angle degrees := by
  unfold linkOf?
  rcases h with heq | heq
  · exact ⟨.same, by rw [heq], nofun⟩
  · exact ⟨.turned, by rw [heq], nofun⟩

omit [Scalar α] in
theorem exists_axisOf? {k : Constraint α}
    (h : k.requirement = .horizontal line ∨ k.requirement = .vertical line) :
    ∃ oriented, axisOf? k = some (line, oriented) := by
  unfold axisOf?
  rcases h with heq | heq
  · exact ⟨⟨.x, [k.id]⟩, by rw [heq]⟩
  · exact ⟨⟨.y, [k.id]⟩, by rw [heq]⟩

theorem FitsOn.holds (h : FitsOn part axis) {k : Constraint α} (hk : k ∈ part) {link : AxisLink α}
    (hlink : linkOf? k = some link) (hfirst : IsOriented part link.first)
    (hsecond : IsOriented part link.second) :
    AxisRelation.holds link.relation (axis link.first) (axis link.second) = true := by
  refine (fitsOn_iff_holds hlink axis).mp (h k hk ?_)
  rw [references_of_linkOf? hlink]
  intro line hline
  simp only [List.mem_cons, EntityRef.line.injEq, List.not_mem_nil, or_false] at hline
  rcases hline with rfl | rfl
  · exact hfirst
  · exact hsecond

/-! ### Axes that are given -/

omit [Scalar α] in
theorem givenAxes_concat_cases (active : List (Constraint α)) (k : Constraint α) :
    (givenAxes (active ++ [k]) = givenAxes active ∧
      ∀ line oriented, axisOf? k = some (line, oriented) →
        ((givenAxes active).lookup line).isSome = true) ∨
    ∃ line oriented, axisOf? k = some (line, oriented) ∧ (givenAxes active).lookup line = none ∧
      givenAxes (active ++ [k]) = givenAxes active ++ [(line, oriented)] := by
  unfold givenAxes
  rw [List.filterMap_append, List.foldl_append]
  cases hk : axisOf? k with
  | none =>
    rw [List.filterMap_cons_none hk]
    exact Or.inl ⟨rfl, nofun⟩
  | some pair =>
    obtain ⟨line, oriented⟩ := pair
    rw [List.filterMap_cons_some hk, List.filterMap_nil, List.foldl_cons, List.foldl_nil]
    dsimp only
    split
    next hknown =>
      refine Or.inl ⟨rfl, ?_⟩
      intro line' oriented' hsame
      cases hsame
      exact hknown
    next hfresh =>
      exact Or.inr ⟨line, oriented, rfl, Option.not_isSome_iff_eq_none.mp hfresh, rfl⟩

omit [Scalar α] in
theorem exists_of_lookup_givenAxes (h : (givenAxes active).lookup line = some oriented) :
    ∃ k ∈ active, axisOf? k = some (line, oriented) := by
  induction active using List.reverseRecOn with
  | nil => cases h
  | append_singleton rest k ih =>
    have hrest (hold : (givenAxes rest).lookup line = some oriented) :
        ∃ k' ∈ rest ++ [k], axisOf? k' = some (line, oriented) := by
      obtain ⟨k', hk', hof⟩ := ih hold
      exact ⟨k', List.mem_append_left _ hk', hof⟩
    rcases givenAxes_concat_cases rest k with ⟨hsame, -⟩ | ⟨_, _, hof, -, hmore⟩
    · rw [hsame] at h
      exact hrest h
    · rw [hmore] at h
      rcases lookup_append_cases h with hold | ⟨rfl, rfl⟩
      · exact hrest hold
      · exact ⟨k, List.mem_append_right _ (List.mem_singleton_self k), hof⟩

omit [Scalar α] in
theorem isSome_lookup_givenAxes {k : Constraint α} (hk : k ∈ active)
    (h : axisOf? k = some (line, oriented)) : ((givenAxes active).lookup line).isSome = true := by
  induction active using List.reverseRecOn with
  | nil => cases hk
  | append_singleton rest last ih =>
    rcases List.mem_append.mp hk with hrest | hlast
    · obtain ⟨given, hgiven⟩ := Option.isSome_iff_exists.mp (ih hrest)
      refine Option.isSome_iff_exists.mpr ⟨given, ?_⟩
      rcases givenAxes_concat_cases rest last with ⟨hsame, -⟩ | ⟨_, _, -, -, hmore⟩
      · rwa [hsame]
      · rw [hmore]
        exact lookup_append_of_eq_some _ hgiven
    · rw [List.mem_singleton.mp hlast] at h
      rcases givenAxes_concat_cases rest last with ⟨hsame, hknown⟩ | ⟨_, _, hof, hfresh, hmore⟩
      · rw [hsame]
        exact hknown line oriented h
      · obtain ⟨rfl, rfl⟩ := Prod.mk.inj (Option.some.inj (hof.symm.trans h))
        rw [hmore, lookup_append_self hfresh]
        rfl

omit [Scalar α] in
theorem lookup_reachedAxes_of_given (h : (givenAxes active).lookup line = some oriented) :
    (reachedAxes active).lookup line = some oriented :=
  spreadAxes_induction (motive := fun axes => axes.lookup line = some oriented)
    (fun _ _ _ _ _ _ hold _ _ => lookup_append_of_eq_some _ hold) h

/-! ### No other axis would do -/

/-- Every axis is the only one that its line can have, in any part of the constraints that has those
because of which it is there. -/
def Forced (active : List (Constraint α)) (axes : Axes) : Prop :=
  ∀ line oriented, axes.lookup line = some oriented →
    ∀ part, (∀ k ∈ active, k.id ∈ oriented.because → k ∈ part) →
      IsOriented part line ∧ ∀ axis, FitsOn part axis → axis line = oriented.axis

theorem forced_givenAxes (active : List (Constraint α)) : Forced active (givenAxes active) := by
  intro line oriented hlookup part hpart
  obtain ⟨k, hk, hof⟩ := exists_of_lookup_givenAxes hlookup
  have hin : k ∈ part := by
    refine hpart k hk ?_
    rw [(of_axisOf? hof).2]
    exact List.mem_singleton_self _
  have hset : IsOriented part line := .set hin ((axisOf?_cases hof).imp And.left And.left)
  refine ⟨hset, fun axis hfits => ?_⟩
  have hk := hfits k hin
  rcases axisOf?_cases hof with ⟨heq, haxis⟩ | ⟨heq, haxis⟩
  all_goals
    rw [heq] at hk
    rw [haxis]
    refine hk fun other hother => ?_
    obtain rfl := EntityRef.line.inj (List.mem_singleton.mp hother)
    exact hset

/-- Where the link holds, the axis that it hands on is the one that the line has. -/
theorem HandsOn.axis_eq {link : AxisLink α} {known : LineId} {source handed : Oriented}
    (h : HandsOn axes link known line source handed)
    (hholds : AxisRelation.holds link.relation (axis link.first) (axis link.second) = true)
    (hknown : axis known = source.axis) : axis line = handed.axis := by
  rcases h.axis with ⟨hsame, hhanded⟩ | ⟨hturned, hhanded⟩
  · rw [hsame, AxisRelation.holds, decide_eq_true_eq] at hholds
    rw [hhanded, ← hknown]
    rcases h.ends with ⟨rfl, rfl⟩ | ⟨rfl, rfl⟩
    · exact hholds.symm
    · exact hholds
  · rw [hturned, AxisRelation.holds, decide_eq_true_eq] at hholds
    rw [hhanded, ← hknown, eq_other_iff]
    rcases h.ends with ⟨rfl, rfl⟩ | ⟨rfl, rfl⟩
    · exact hholds
    · exact hholds.symm

theorem Forced.spreadAxes (h : Forced active axes) :
    Forced active (spreadAxes (active.filterMap linkOf?) axes) := by
  refine spreadAxes_induction (motive := Forced active) ?_ h
  intro axes link known line source handed haxes hlink hands line' oriented hlookup part hpart
  rcases lookup_append_cases hlookup with hold | ⟨rfl, rfl⟩
  · exact haxes line' oriented hold part hpart
  · obtain ⟨k, hk, -, hid, hof⟩ := exists_of_mem_links hlink
    have hbecause (id : ConstraintId) :
        id ∈ oriented.because ↔ id = link.id ∨ id ∈ source.because := by
      rw [hands.because]
      exact mem_insertAscending_iff ConstraintId.eq_of_lt_eq_false ..
    have hin : k ∈ part := hpart k hk ((hbecause _).mpr (Or.inl hid))
    obtain ⟨hknown, hsource⟩ := haxes known source hands.lookup_known part
      fun k' hk' hsame => hpart k' hk' ((hbecause _).mpr (Or.inr hsame))
    have hkind : k.requirement = .parallel link.first link.second ∨
        k.requirement = .perpendicular link.first link.second :=
      hands.axis.imp (fun h => (linkOf?_cases hof).1 h.1) fun h => (linkOf?_cases hof).2 h.1
    have hboth : IsOriented part link.first ∧ IsOriented part link.second := by
      rcases hands.ends with ⟨rfl, -⟩ | ⟨rfl, -⟩
      · exact ⟨hknown, .forth hin hkind hknown⟩
      · exact ⟨.back hin hkind hknown, hknown⟩
    refine ⟨?_, fun axis hfits => ?_⟩
    · rcases hands.ends with ⟨-, rfl⟩ | ⟨-, rfl⟩
      · exact hboth.2
      · exact hboth.1
    · exact hands.axis_eq (hfits.holds hin hof hboth.1 hboth.2) (hsource axis hfits)

theorem forced_reachedAxes (active : List (Constraint α)) : Forced active (reachedAxes active) :=
  (forced_givenAxes active).spreadAxes

/-! ### Every line gets its axis -/

omit [Scalar α] in
theorem isSome_lookup_reachedAxes (h : IsOriented active line) :
    ((reachedAxes active).lookup line).isSome = true := by
  have hspent {k : Constraint α} {a b : LineId} (hk : k ∈ active)
      (hkind : k.requirement = .parallel a b ∨ k.requirement = .perpendicular a b) :
      ((reachedAxes active).lookup a).isSome = true ↔
        ((reachedAxes active).lookup b).isSome = true := by
    obtain ⟨relation, hof, hrelation⟩ := exists_linkOf? hkind
    rcases isSpent_spreadAxes (givenAxes active) (List.mem_filterMap.mpr ⟨k, hk, hof⟩) with
      ⟨degrees, hangle⟩ | hends
    · exact absurd hangle (hrelation degrees)
    · exact hends
  induction h with
  | set hk hkind =>
    obtain ⟨oriented, hof⟩ := exists_axisOf? hkind
    obtain ⟨given, hgiven⟩ := Option.isSome_iff_exists.mp (isSome_lookup_givenAxes hk hof)
    rw [lookup_reachedAxes_of_given hgiven]
    rfl
  | forth hk hkind _ ih => exact (hspent hk hkind).mp ih
  | back hk hkind _ ih => exact (hspent hk hkind).mpr ih

/-! ### Conflicts of axes -/

theorem ofLink?_eq_none_iff {link : AxisLink α} :
    ofLink? s axes link = none ↔ ∀ a b, axes.lookup link.first = some a →
      axes.lookup link.second = some b →
      AxisRelation.holds link.relation a.axis b.axis = true := by
  unfold ofLink?
  cases hfirst : axes.lookup link.first with
  | none => simp
  | some a =>
    cases hsecond : axes.lookup link.second with
    | none => simp
    | some b => simp [bind, Option.bind]

theorem ofAxes_eq_nil_iff : ofAxes s active = [] ↔
    ∀ link ∈ active.filterMap linkOf?, ∀ a b, (reachedAxes active).lookup link.first = some a →
      (reachedAxes active).lookup link.second = some b →
      AxisRelation.holds link.relation a.axis b.axis = true := by
  unfold ofAxes
  rw [List.filterMap_eq_nil_iff]
  exact forall₂_congr fun _ _ => ofLink?_eq_none_iff

theorem ofAxes_eq_nil_of_fits (h : Fits active) : ofAxes s active = [] := by
  obtain ⟨axis, hfits⟩ := h
  refine ofAxes_eq_nil_iff.mpr ?_
  intro link hlink a b ha hb
  obtain ⟨k, hk, -, -, hof⟩ := exists_of_mem_links hlink
  have hforced := forced_reachedAxes active
  obtain ⟨hfirst, haxis⟩ := hforced link.first a ha active fun k hk _ => hk
  obtain ⟨hsecond, haxis'⟩ := hforced link.second b hb active fun k hk _ => hk
  rw [← haxis axis hfits, ← haxis' axis hfits]
  exact hfits.holds hk hof hfirst hsecond

/-- The axes that lines get fit, unless a line is to be horizontal and vertical. -/
theorem fits_of_ofAxes_eq_nil
    (hone : ∀ level ∈ active, ∀ upright ∈ active, ∀ line,
      level.requirement = .horizontal line → upright.requirement ≠ .vertical line)
    (h : ofAxes s active = []) : Fits active := by
  let axis (line : LineId) : Axis := (((reachedAxes active).lookup line).map (·.axis)).getD .x
  have hgiven {k : Constraint α} {line : LineId} (oriented : Oriented) (hk : k ∈ active)
      (hof : axisOf? k = some (line, oriented)) : axis line = oriented.axis := by
    obtain ⟨given, hlookup⟩ := Option.isSome_iff_exists.mp (isSome_lookup_givenAxes hk hof)
    obtain ⟨k', hk', hof'⟩ := exists_of_lookup_givenAxes hlookup
    have haxis : axis line = given.axis := by
      simp only [axis, lookup_reachedAxes_of_given hlookup, Option.map_some, Option.getD_some]
    rw [haxis]
    rcases axisOf?_cases hof with ⟨heq, hx⟩ | ⟨heq, hy⟩ <;>
      rcases axisOf?_cases hof' with ⟨heq', hx'⟩ | ⟨heq', hy'⟩
    · rw [hx, hx']
    · exact absurd heq' (hone k hk k' hk' line heq)
    · exact absurd heq (hone k' hk' k hk line heq')
    · rw [hy, hy']
  refine ⟨axis, fun k hk horiented => ?_⟩
  cases hlink : linkOf? k with
  | some link =>
    rw [fitsOn_iff_holds hlink]
    rw [references_of_linkOf? hlink] at horiented
    obtain ⟨a, ha⟩ := Option.isSome_iff_exists.mp
      (isSome_lookup_reachedAxes (horiented link.first (List.mem_cons_self ..)))
    obtain ⟨b, hb⟩ := Option.isSome_iff_exists.mp
      (isSome_lookup_reachedAxes (horiented link.second (by simp)))
    simp only [axis, ha, hb, Option.map_some, Option.getD_some]
    exact ofAxes_eq_nil_iff.mp h link (List.mem_filterMap.mpr ⟨k, hk, hlink⟩) a b ha hb
  | none =>
    unfold Requirement.FitsOn
    split
    next line heq => exact hgiven ⟨.x, [k.id]⟩ hk (by unfold axisOf?; rw [heq])
    next line heq => exact hgiven ⟨.y, [k.id]⟩ hk (by unfold axisOf?; rw [heq])
    next heq => simp [linkOf?, heq] at hlink
    next heq => simp [linkOf?, heq] at hlink
    next heq => simp [linkOf?, heq] at hlink
    next => trivial

theorem not_fits_members {conflict : Conflict} (h : conflict ∈ ofAxes s active) :
    ¬Fits (active.filter (·.id ∈ conflict.members)) := by
  rintro ⟨axis, hfits⟩
  obtain ⟨link, hlink, hof⟩ := List.mem_filterMap.mp h
  obtain ⟨hcontradicts, a, b, ha, hb, hmembers⟩ := ofLink?_members hof
  obtain ⟨k, hk, -, hid, hkof⟩ := exists_of_mem_links hlink
  have hpart {k : Constraint α} (hk : k ∈ active)
      (hmember : k.id ∈ a.because ∨ k.id ∈ b.because ∨ k.id = link.id) :
      k ∈ active.filter (·.id ∈ conflict.members) :=
    List.mem_filter.mpr ⟨hk, decide_eq_true ((hmembers k.id).mpr hmember)⟩
  have hforced := forced_reachedAxes active
  obtain ⟨hfirst, haxis⟩ := hforced link.first a ha _ fun k hk hin => hpart hk (Or.inl hin)
  obtain ⟨hsecond, haxis'⟩ :=
    hforced link.second b hb _ fun k hk hin => hpart hk (Or.inr (Or.inl hin))
  refine hcontradicts ⟨a, b, ha, hb, ?_⟩
  rw [← haxis axis hfits, ← haxis' axis hfits]
  exact hfits.holds (hpart hk (Or.inr (Or.inr hid))) hkof hfirst hsecond

/-- As long as no line is to be horizontal and vertical, there is a conflict of axes exactly if the
lines that have to be on an axis cannot be put on axes. The rounds over the links settle, and the
members of each conflict do not fit on their own. -/
theorem ofAxes_decides_fits (s : Sketch α) (active : List (Constraint α))
    (hone : ∀ level ∈ active, ∀ upright ∈ active, ∀ line,
      level.requirement = .horizontal line → upright.requirement ≠ .vertical line) :
    let links := active.filterMap linkOf?
    Settles (fun axes => links.foldl follow axes) (givenAxes active) (reachedAxes active) ∧
    (ofAxes s active = [] ↔ Fits active) ∧
    ∀ conflict ∈ ofAxes s active, ¬Fits (active.filter (·.id ∈ conflict.members)) :=
  ⟨settles_spreadAxes _ _, ⟨fits_of_ofAxes_eq_nil hone, ofAxes_eq_nil_of_fits⟩,
    fun _ => not_fits_members⟩

/-- A horizontal line, a parallel one, one perpendicular to that, and the angle that this makes with
the first line. -/
def square : List (Constraint Float) :=
  [⟨⟨0⟩, .horizontal ⟨4⟩, true, true, 1.0⟩, ⟨⟨1⟩, .parallel ⟨4⟩ ⟨5⟩, true, true, 1.0⟩,
    ⟨⟨2⟩, .perpendicular ⟨5⟩ ⟨6⟩, true, true, 1.0⟩, ⟨⟨3⟩, .angle ⟨6⟩ ⟨4⟩ 90.0, true, true, 1.0⟩]

/-- The same lines, and the last one is to be horizontal as well. -/
def flattened : List (Constraint Float) :=
  square ++ [⟨⟨4⟩, .horizontal ⟨6⟩, true, true, 1.0⟩]

theorem ofAxes_decides_fits_flattened :
    (∀ k ∈ flattened, ∀ line, k.requirement ≠ .vertical line) ∧
    Fits square ∧ ¬Fits flattened ∧ ¬Fits (flattened.filter (·.id ∈ [⟨0⟩, ⟨3⟩, ⟨4⟩])) := by
  have hlevel : ∀ k ∈ flattened, ∀ line, k.requirement ≠ .vertical line := by
    simp [flattened, square]
  obtain ⟨-, hsquare, -⟩ := ofAxes_decides_fits (.empty "square") square
    fun _ _ upright hupright line _ => hlevel upright (List.mem_append_left _ hupright) line
  obtain ⟨-, hiff, hflattened⟩ := ofAxes_decides_fits (.empty "flattened") flattened
    fun _ _ upright hupright line _ => hlevel upright hupright line
  have hnone : (ofAxes (.empty "square") square).length = 0 := by decide +kernel
  have hmembers : (ofAxes (.empty "flattened") flattened).map (·.members) =
      [[⟨0⟩, ⟨1⟩, ⟨2⟩, ⟨4⟩], [⟨0⟩, ⟨3⟩, ⟨4⟩]] := by
    decide +kernel
  obtain ⟨conflict, hconflict, hthree⟩ : ∃ conflict ∈ ofAxes (.empty "flattened") flattened,
      conflict.members = [⟨0⟩, ⟨3⟩, ⟨4⟩] := by
    rw [← List.mem_map, hmembers]
    decide
  refine ⟨hlevel, hsquare.mp (List.length_eq_zero_iff.mp hnone), ?_, ?_⟩
  · intro hfits
    rw [hiff.mpr hfits] at hconflict
    cases hconflict
  · rw [← hthree]
    exact hflattened conflict hconflict

end Conflict

end PlaneSketch
