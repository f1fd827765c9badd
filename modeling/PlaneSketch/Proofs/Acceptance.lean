import PlaneSketch.Proofs.Proposals

/-!
# Accepting a suggestion

A constraint that only names drawn entities brings no helper geometry back to life, so it leaves the
variables as they were, unless it holds a point: then the two coordinates of that point are
variables no longer. Either way it takes away as much freedom as was announced, in the one case by
equations and in the other by variables. And once a suggestion is accepted (`apply_suggestion`), no
rule comes back to it.
-/

namespace PlaneSketch

variable {α : Type} [Scalar α]

namespace Sketch

/-- The constraint that is added next. -/
def nextConstraintOf (s : Sketch α) (r : Requirement α) : Constraint α :=
  ⟨⟨s.nextConstraint⟩, r, true, true, 1.0⟩

variable (s : Sketch α) (r : Requirement α)

@[simp]
theorem constraints_addConstraint :
    (s.addConstraint r).2.constraints = s.constraints ++ [s.nextConstraintOf r] :=
  rfl

theorem active_addConstraint :
    (s.addConstraint r).2.active = s.active ++ [s.nextConstraintOf r] :=
  List.filter_append ..

theorem mem_active_addConstraint : s.nextConstraintOf r ∈ (s.addConstraint r).2.active := by
  rw [active_addConstraint]
  exact List.mem_append_right _ (List.mem_singleton_self _)

/-! ### Equations -/

theorem equations_addConstraint : (s.addConstraint r).2.freedom.equations =
    s.freedom.equations + if r.isFixed = true then 0 else r.dofWeight := by
  show List.sum _ = List.sum _ + _
  rw [constraints_addConstraint, List.filter_append, List.map_append, List.sum_append]
  congr 1
  cases hfixed : r.isFixed <;>
    simp [nextConstraintOf, Constraint.takesFreedom, Constraint.isActive, hfixed]

/-! ### Pins -/

theorem pins_addConstraint : (s.addConstraint r).2.pins =
    (s.heldBy? (s.nextConstraintOf r)).toList.foldl
      (fun pins (id, position) => pins.hold id position) s.pins := by
  have hheld : (s.addConstraint r).2.constraints.filterMap (s.addConstraint r).2.heldBy? =
      s.constraints.filterMap s.heldBy? ++ (s.heldBy? (s.nextConstraintOf r)).toList := by
    refine List.filterMap_append.trans (congrArg _ ?_)
    show [s.nextConstraintOf r].filterMap s.heldBy? = _
    cases hnext : s.heldBy? (s.nextConstraintOf r) <;> simp [hnext]
  unfold pins
  rw [hheld, List.foldl_append]
  rfl

variable {s r}

theorem pins_addConstraint_of_not_isFixed (hfixed : r.isFixed = false) :
    (s.addConstraint r).2.pins = s.pins := by
  have hnone : s.heldBy? (s.nextConstraintOf r) = none := by
    cases r with
    | fixed => cases hfixed
    | _ => rfl
  rw [pins_addConstraint, hnone]
  rfl

theorem WellFormed.pins_addConstraint_fixed (hs : s.WellFormed) {p : Point α}
    (hp : .point p ∈ s.entities) (hheld : s.pins = []) (position : Vec α) :
    (s.addConstraint (.fixed p.id position)).2.pins = [(p.id, position)] := by
  have hfree : p.fixed = false := by
    rw [← Bool.not_eq_true]
    intro hfixed
    have hpin := hs.mem_pins_of_fixed hp hfixed
    rw [hheld] at hpin
    cases hpin
  have hpoint : s.point? p.id = some p := hs.point?_eq_some_iff.mpr ⟨hp, rfl⟩
  have hnext : s.heldBy? (s.nextConstraintOf (.fixed p.id position)) = some (p.id, position) := by
    simp [heldBy?, nextConstraintOf, Constraint.isActive, hpoint, hfree]
  rw [pins_addConstraint, hnext, hheld]
  rfl

/-! ### Variables -/

theorem WellFormed.isLive_addConstraint (hs : s.WellFormed)
    (hdrawn : ∀ ref ∈ r.references, ∃ e ∈ s.entities, e.ref = ref ∧ e.isConstruction = false)
    {e : Entity α} (he : e ∈ s.entities) : (s.addConstraint r).2.isLive e = s.isLive e := by
  have hconstrained : (s.addConstraint r).2.isConstrained e.raw =
      (s.isConstrained e.raw || r.references.any (·.raw = e.raw)) := by
    simp [isConstrained, active_addConstraint, nextConstraintOf]
  rw [isLive, isLive, hconstrained]
  cases hnamed : r.references.any (·.raw = e.raw) with
  | false => rw [Bool.or_false]
  | true =>
    -- what is named is drawn, and was live before
    obtain ⟨ref, href, hraw⟩ := List.any_eq_true.mp hnamed
    obtain ⟨d, hd, rfl, hdrawn⟩ := hdrawn ref href
    obtain rfl := hs.eq_of_raw_eq hd he (of_decide_eq_true hraw)
    simp only [hdrawn, Bool.not_false, Bool.true_or]

theorem WellFormed.carriesCurve_addConstraint (hs : s.WellFormed)
    (hdrawn : ∀ ref ∈ r.references, ∃ e ∈ s.entities, e.ref = ref ∧ e.isConstruction = false)
    (id : PointId) : (s.addConstraint r).2.carriesCurve id = s.carriesCurve id := by
  rw [Bool.eq_iff_iff]
  simp only [carriesCurve, List.any_eq_true]
  refine exists_congr fun e => and_congr_right fun he => ?_
  rw [hs.isLive_addConstraint hdrawn he]

theorem WellFormed.slots_addConstraint_of_not_isFixed (hs : s.WellFormed)
    (hfixed : r.isFixed = false)
    (hdrawn : ∀ ref ∈ r.references, ∃ e ∈ s.entities, e.ref = ref ∧ e.isConstruction = false) :
    s.slots.Perm (s.addConstraint r).2.slots := by
  rw [List.perm_ext_iff_of_nodup s.slots_nodup (s.addConstraint r).2.slots_nodup]
  intro slot
  have hadded : (s.addConstraint r).2.WellFormed := (s.evolves_addConstraint r).wellFormed hs
  rw [hs.mem_slots_iff, hadded.mem_slots_iff]
  refine exists_congr fun e => and_congr_right fun he => ?_
  have hlive := hs.isLive_addConstraint hdrawn (List.mem_of_getElem? he)
  have hfree : (s.addConstraint r).2.isFree e = s.isFree e := by
    cases e with
    | point p =>
      simp only [isFree, hlive, pins_addConstraint_of_not_isFixed hfixed,
        hs.carriesCurve_addConstraint hdrawn]
    | line | circle | arc => exact hlive
  rw [hfree]

omit [Scalar α] in
theorem WellFormed.ref_eq_iff_place_eq (hs : s.WellFormed) {i j : Nat} {d e : Entity α}
    (hd : s.entities[i]? = some d) (he : s.entities[j]? = some e) : d.ref = e.ref ↔ i = j := by
  constructor
  · intro href
    have hraw : d.raw = e.raw := congrArg EntityRef.raw href
    exact Option.some.inj ((hs.index_of_getElem? hd).symm.trans (hraw ▸ hs.index_of_getElem? he))
  · rintro rfl
    rw [Option.some.inj (hd.symm.trans he)]

section Anchor

variable {p : Point α} {place : Nat}

theorem WellFormed.mem_slots_addConstraint_fixed (hs : s.WellFormed)
    (hp : s.entities[place]? = some (.point p)) (hdrawn : p.construction = false)
    (hheld : s.pins = []) (position : Vec α) {slot : Slot} :
    slot ∈ (s.addConstraint (.fixed p.id position)).2.slots ↔
      slot ∈ s.slots ∧ slot.place ≠ place := by
  have hmem := List.mem_of_getElem? hp
  have hpins := hs.pins_addConstraint_fixed hmem hheld position
  have hrefs : ∀ ref ∈ (Requirement.fixed p.id position).references,
      ∃ e ∈ s.entities, e.ref = ref ∧ e.isConstruction = false := by
    intro ref href
    cases List.mem_singleton.mp href
    exact ⟨_, hmem, rfl, hdrawn⟩
  have hadded : (s.addConstraint (.fixed p.id position)).2.WellFormed :=
    (s.evolves_addConstraint _).wellFormed hs
  rw [hs.mem_slots_iff, hadded.mem_slots_iff, ← exists_and_right]
  refine exists_congr fun e => ?_
  rw [and_assoc]
  refine and_congr_right fun he => ?_
  rw [and_assoc]
  refine and_congr_right fun _ => ?_
  rw [Ne, ← hs.ref_eq_iff_place_eq he hp]
  have hlive := hs.isLive_addConstraint hrefs (List.mem_of_getElem? he)
  cases e with
  | point q =>
    simp only [isFree, hlive, hs.carriesCurve_addConstraint hrefs, hpins, hheld, Pins.holds,
      List.any_cons, List.any_nil, Bool.or_false, Bool.not_false, Bool.true_and, Bool.and_eq_true,
      Bool.not_eq_true', decide_eq_false_iff_not, Entity.ref, EntityRef.point.injEq]
    rw [and_comm, eq_comm (a := p.id)]
  | line | circle | arc => simp [isFree, hlive, Entity.ref]

omit [Scalar α] in
theorem WellFormed.mem_slots_at_point (hs : s.WellFormed)
    (hp : s.entities[place]? = some (.point p)) (hdrawn : p.construction = false)
    (hheld : s.pins = []) {slot : Slot} :
    slot ∈ s.slots ∧ slot.place = place ↔ slot = .pointX place ∨ slot = .pointY place := by
  have hfree : s.isFree (.point p) = true := by
    simp [isFree, isLive, hheld, Pins.holds, Entity.isConstruction, hdrawn]
  constructor
  · rintro ⟨hslot, rfl⟩
    obtain ⟨e, he, hread, -⟩ := hs.mem_slots_iff.mp hslot
    cases hp.symm.trans he
    cases slot <;> simp [Slot.read?] at hread
    · exact Or.inl rfl
    · exact Or.inr rfl
  · rintro (rfl | rfl)
    · exact ⟨hs.mem_slots_iff.mpr ⟨_, hp, rfl, hfree⟩, rfl⟩
    · exact ⟨hs.mem_slots_iff.mpr ⟨_, hp, rfl, hfree⟩, rfl⟩

/-- Holding the first point takes its two coordinates out of the variables. -/
theorem WellFormed.slots_addConstraint_fixed (hs : s.WellFormed)
    (hp : s.entities[place]? = some (.point p)) (hdrawn : p.construction = false)
    (hheld : s.pins = []) (position : Vec α) :
    s.slots.Perm (.pointX place :: .pointY place ::
      (s.addConstraint (.fixed p.id position)).2.slots) := by
  have hrest (slot : Slot) :
      slot ∈ (s.addConstraint (.fixed p.id position)).2.slots ↔
        slot ∈ s.slots ∧ slot.place ≠ place :=
    hs.mem_slots_addConstraint_fixed hp hdrawn hheld position
  have hnodup : (Slot.pointX place :: .pointY place ::
      (s.addConstraint (.fixed p.id position)).2.slots).Nodup := by
    refine List.nodup_cons.mpr ⟨?_, List.nodup_cons.mpr ⟨?_, slots_nodup _⟩⟩
    · simp [hrest, Slot.place]
    · simp [hrest, Slot.place]
  rw [List.perm_ext_iff_of_nodup s.slots_nodup hnodup]
  intro slot
  rw [List.mem_cons, List.mem_cons, ← or_assoc, ← hs.mem_slots_at_point hp hdrawn hheld, hrest,
    ← and_or_left]
  exact (and_iff_left (em _)).symm

end Anchor

/-! ### Degrees of freedom -/

/-- What is proposed takes away the freedom that it weighs. -/
theorem WellFormed.dof_addConstraint (hs : s.WellFormed) {auto : Bool} (h : s.Proposes r auto) :
    (s.addConstraint r).2.freedom.dof = s.freedom.dof - r.dofWeight := by
  have hequations := equations_addConstraint s r
  show ((s.addConstraint r).2.slots.length : Int) - (s.addConstraint r).2.freedom.equations =
    (s.slots.length : Int) - s.freedom.equations - r.dofWeight
  cases hfixed : r.isFixed with
  | false =>
    have hlength := (hs.slots_addConstraint_of_not_isFixed hfixed h.drawn).length_eq
    rw [hfixed, if_neg Bool.false_ne_true] at hequations
    omega
  | true =>
    cases h with
    | @anchor p hheld hp hdrawn =>
      obtain ⟨place, hplace⟩ := List.getElem?_of_mem hp
      have hlength := (hs.slots_addConstraint_fixed hplace hdrawn hheld p.position).length_eq
      rw [List.length_cons, List.length_cons] at hlength
      rw [hfixed, if_pos rfl] at hequations
      show _ = _ - ((2 : Nat) : Int)
      omega
    | horizontal | vertical | length | radius | angle => cases hfixed

/-- An accepted suggestion takes away the freedom that it announces, and as long as it is active
and its entities are there, nothing that it forestalls is suggested: no requirement of its kind on
the same entities, no axis for a line that it put on one, and no point to hold after an anchor. -/
theorem applySuggestion_settles [NumberText α] (hs : s.WellFormed) {c : DiagnosisConfig α}
    {suggestion : Suggestion α} (h : suggestion ∈ s.suggestions c) :
    (s.applySuggestion suggestion).2.freedom.dof = s.freedom.dof - suggestion.dofReduction ∧
      (∃ k ∈ (s.applySuggestion suggestion).2.active,
        k.id = (s.applySuggestion suggestion).1 ∧ k.requirement = suggestion.proposed) ∧
      ∀ t : Sketch α, t.WellFormed → ∀ k ∈ t.active,
        k.requirement.name = suggestion.proposed.name →
        k.requirement.references = suggestion.proposed.references →
        (∀ ref ∈ suggestion.targets, t.contains ref = true) →
        ∀ (c' : DiagnosisConfig α), ∀ later ∈ t.suggestions c',
          ¬ suggestion.proposed.Forestalls later.proposed := by
  refine ⟨hs.dof_addConstraint (proposes_of_mem_suggestions h),
    ⟨_, mem_active_addConstraint s suggestion.proposed, rfl, rfl⟩, ?_⟩
  intro t ht k hk hname hreferences hfound c' later hlater hforestalls
  have hfound : ∀ ref ∈ k.requirement.references, t.contains ref = true := by
    rw [hreferences]
    exact hfound
  have hproposed := proposes_of_mem_suggestions hlater
  exact hproposed.not_forestalled ht hk hfound (hforestalls.congr hname.symm hreferences.symm)

open Operation

/-- A circle that nothing holds. -/
def adrift : Sketch Float := run [.addPoint ⟨1.0, 2.0⟩, .addCircle ⟨0⟩ 3.0] (empty "adrift")

theorem applySuggestion_settles_adrift :
    ∃ suggestion ∈ adrift.suggestions .standard,
      suggestion.proposed = .fixed ⟨0⟩ ⟨1.0, 2.0⟩ ∧
        (adrift.applySuggestion suggestion).2.freedom.dof = 1 ∧
        ∀ position : Vec Float, ∀ later ∈
          ((adrift.applySuggestion suggestion).2.addPoint position).2.suggestions .standard,
          later.proposed.isFixed = false := by
  let snap := (DiagnosisConfig.standard : DiagnosisConfig Float).axisSnap
  have hroom : (Suggestion.all adrift snap).length ≤ 12 := by decide +kernel
  have hfirst : (Suggestion.all adrift snap).head?.map (·.proposed) =
      some (.fixed ⟨0⟩ ⟨1.0, 2.0⟩) := by
    decide +kernel
  obtain ⟨suggestion, hsuggestion, hproposed⟩ := Option.map_eq_some_iff.mp hfirst
  have hin : suggestion ∈ adrift.suggestions .standard :=
    (mem_suggestions_iff hroom).mpr (List.mem_of_head? hsuggestion)
  have hs : adrift.WellFormed := wellFormed_run_empty _ "adrift"
  obtain ⟨hdof, ⟨k, hk, -, hrequirement⟩, hsettled⟩ := applySuggestion_settles hs hin
  refine ⟨suggestion, hin, hproposed, ?_, ?_⟩
  · have hbefore : adrift.freedom.dof = 3 := by decide +kernel
    rw [hdof, hbefore, Suggestion.dofReduction, hproposed]
    rfl
  · intro position later hlater
    have happlied : ((adrift.applySuggestion suggestion).2.addPoint position).2.WellFormed :=
      (hs.addConstraint _).push rfl
    have hfound : ∀ ref ∈ suggestion.targets,
        ((adrift.applySuggestion suggestion).2.addPoint position).2.contains ref = true := by
      rw [Suggestion.targets, hproposed]
      intro ref href
      cases List.mem_singleton.mp href
      rfl
    have hnot := hsettled _ happlied k hk (congrArg _ hrequirement) (congrArg _ hrequirement) hfound
      .standard later hlater
    rw [← Bool.not_eq_true]
    intro hfixed
    refine hnot (Or.inr (Or.inr ⟨?_, hfixed⟩))
    rw [hproposed]
    rfl

end Sketch

end PlaneSketch
