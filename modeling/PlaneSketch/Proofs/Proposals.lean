import Mathlib.Data.List.Permutation
import PlaneSketch.Proofs.References
import PlaneSketch.Proofs.Removal
import PlaneSketch.Proofs.View

/-!
# What is proposed

Each rule (`anchor`, `axis_alignment`, `dimensions`, `angles`) proposes something about drawn
geometry that is not settled yet: a point when nothing is held, the axis of a line without a
direction, a length or a radius without a target, an angle between lines that are not related. A
requirement settles what every requirement of its kind on the same entities would settle, in
whatever order it names them; so where one is active, no rule proposes the like of it again.
-/

namespace PlaneSketch

variable {α : Type}

/-! ### What forestalls what -/

namespace Requirement

/-- Whether another requirement has nothing to add: it is of the same kind and on the same entities,
or both put one line on an axis, or both hold a point. -/
def Forestalls (r later : Requirement α) : Prop :=
  r.name = later.name ∧ r.references.Perm later.references ∨
    (∃ l, r.alignsWithAxis l = true ∧ later.alignsWithAxis l = true) ∨
    r.isFixed = true ∧ later.isFixed = true

variable {r r' later : Requirement α}

theorem isFixed_iff : r.isFixed = true ↔ r.name = "Fixed" := by
  cases r <;> simp [isFixed, name]

theorem alignsWithAxis_iff {l : LineId} : r.alignsWithAxis l = true ↔
    (r.name = "Horizontal" ∨ r.name = "Vertical") ∧ r.references = [.line l] := by
  cases r <;> simp [alignsWithAxis, name, references]

theorem orients_of_alignsWithAxis {l : LineId} (h : r.alignsWithAxis l = true) :
    r.orients l = true := by
  cases r with
  | horizontal | vertical => exact h
  | _ => cases h

/-- The target of a dimension has no say in what the dimension settles. -/
theorem Forestalls.congr (h : r.Forestalls later) (hname : r.name = r'.name)
    (hreferences : r.references = r'.references) : r'.Forestalls later := by
  simpa only [Forestalls, isFixed_iff, alignsWithAxis_iff, hname, hreferences] using h

theorem Forestalls.isFixed (h : r.Forestalls later) (hlater : later.isFixed = true) :
    r.isFixed = true := by
  rcases h with ⟨hname, -⟩ | ⟨l, -, hl⟩ | ⟨hr, -⟩
  · rw [isFixed_iff, hname]
    exact isFixed_iff.mp hlater
  · rw [isFixed_iff] at hlater
    rw [alignsWithAxis_iff, hlater] at hl
    simp at hl
  · exact hr

theorem Forestalls.alignsWithAxis (h : r.Forestalls later) {l : LineId}
    (hlater : later.alignsWithAxis l = true) : r.alignsWithAxis l = true := by
  rw [alignsWithAxis_iff] at hlater
  rcases h with ⟨hname, hreferences⟩ | ⟨k, hk, hl⟩ | ⟨-, hl⟩
  · rw [hlater.2, List.perm_singleton] at hreferences
    exact alignsWithAxis_iff.mpr ⟨hname ▸ hlater.1, hreferences⟩
  · have hsame := (alignsWithAxis_iff.mp hl).2.symm.trans hlater.2
    cases hsame
    exact hk
  · rw [isFixed_iff.mp hl] at hlater
    simp at hlater

theorem Forestalls.sizesLine {line : Line} {v : α} (h : r.Forestalls (.length line.id v)) :
    r.sizesLine line = true := by
  rcases h with ⟨hname, hreferences⟩ | ⟨_, -, hl⟩ | ⟨-, hl⟩
  · obtain ⟨l, w, rfl⟩ : ∃ l w, r = .length l w := by cases r <;> simp [name] at hname ⊢
    obtain ⟨rfl⟩ : l = line.id := by simpa [references] using hreferences
    exact decide_eq_true rfl
  · cases hl
  · cases hl

theorem Forestalls.sizesCurve {curve : CurveId} {v : α} (h : r.Forestalls (.radius curve v)) :
    r.sizesCurve curve = true := by
  rcases h with ⟨hname, hreferences⟩ | ⟨_, -, hl⟩ | ⟨-, hl⟩
  · obtain ⟨c, w, rfl⟩ : ∃ c w, r = .radius c w := by cases r <;> simp [name] at hname ⊢
    have href : c.toRef = curve.toRef := by simpa [references] using hreferences
    obtain rfl : c = curve := by cases c <;> cases curve <;> cases href <;> rfl
    exact decide_eq_true rfl
  · cases hl
  · cases hl

theorem Forestalls.relates {a b : LineId} {v : α} (h : r.Forestalls (.angle a b v)) :
    r.relates a b = true := by
  rcases h with ⟨hname, hreferences⟩ | ⟨_, -, hl⟩ | ⟨-, hl⟩
  · obtain ⟨k, l, w, rfl⟩ : ∃ k l w, r = .angle k l w := by cases r <;> simp [name] at hname ⊢
    rcases List.perm_pair.mp hreferences with hsame | hswapped
    · cases hsame
      simp [Requirement.relates]
    · cases hswapped
      simp [Requirement.relates]
  · cases hl
  · cases hl

end Requirement

/-! ### Drawn geometry -/

namespace Suggestion

theorem sublist_of_mem_pairs {β : Type} {a b : β} {xs : List β} (h : (a, b) ∈ pairs xs) :
    [a, b].Sublist xs := by
  induction xs with
  | nil => cases h
  | cons x rest ih =>
    rcases List.mem_append.mp h with hfirst | hrest
    · obtain ⟨c, hc, hpair⟩ := List.mem_map.mp hfirst
      cases hpair
      exact (List.singleton_sublist.mpr hc).cons_cons _
    · exact (ih hrest).cons _

end Suggestion

namespace Sketch

variable {s t : Sketch α}

theorem mem_drawnLines_iff {l : Line} :
    l ∈ s.drawnLines ↔ .line l ∈ s.entities ∧ l.construction = false := by
  rw [drawnLines, List.mem_filter, mem_lines_iff, Bool.not_eq_true']

theorem mem_drawnCurves {curve : CurveId} {radius : α} (h : (curve, radius) ∈ s.drawnCurves) :
    (∃ c, .circle c ∈ s.entities ∧ c.construction = false ∧ curve = .circle c.id ∧
        radius = c.radius) ∨
      ∃ a, .arc a ∈ s.entities ∧ a.construction = false ∧ curve = .arc a.id ∧
        radius = a.radius := by
  rcases List.mem_append.mp h with hcircle | harc
  · obtain ⟨c, hc, heq⟩ := List.mem_map.mp hcircle
    rw [List.mem_filter, mem_circles_iff, Bool.not_eq_true'] at hc
    cases heq
    exact Or.inl ⟨c, hc.1, hc.2, rfl, rfl⟩
  · obtain ⟨a, ha, heq⟩ := List.mem_map.mp harc
    rw [List.mem_filter, mem_arcs_iff, Bool.not_eq_true'] at ha
    cases heq
    exact Or.inr ⟨a, ha.1, ha.2, rfl, rfl⟩

theorem WellFormed.raw_lt_of_mem_pairs (hs : s.WellFormed) {a b : Line}
    (h : (a, b) ∈ Suggestion.pairs s.drawnLines) : a.id.raw < b.id.raw := by
  have hlines : s.lines.Pairwise fun a b => a.id.raw < b.id.raw := by
    have hentities : s.entities.Pairwise fun d e => d.raw < e.raw :=
      List.pairwise_map.mp hs.raws_ascending
    refine List.pairwise_filterMap.mpr (hentities.imp ?_)
    intro d e hlt k hk l hl
    cases d <;> cases hk
    cases e <;> cases hl
    exact hlt
  have hpair : [a, b].Sublist s.lines :=
    (Suggestion.sublist_of_mem_pairs h).trans List.filter_sublist
  simpa using hlines.sublist hpair

/-! ### What is settled -/

theorem Pins.foldl_hold_ne_nil {pins : Pins α} {held : List (PointId × Vec α)}
    (h : pins ≠ [] ∨ held ≠ []) :
    held.foldl (fun pins (id, position) => pins.hold id position) pins ≠ [] := by
  induction held generalizing pins with
  | nil => exact h.resolve_right (fun hnil => hnil rfl)
  | cons first rest ih =>
    refine ih (Or.inl ?_)
    cases pins with
    | nil => nofun
    | cons pin others =>
      dsimp only [hold]
      split <;> nofun

/-- An active constraint that holds a point of the sketch makes the sketch hold something. -/
theorem WellFormed.pins_ne_nil (hs : s.WellFormed) {k : Constraint α} (hk : k ∈ s.active)
    (hfixed : k.requirement.isFixed = true)
    (hfound : ∀ ref ∈ k.requirement.references, s.contains ref = true) : s.pins ≠ [] := by
  obtain ⟨hk, hactive⟩ := List.mem_filter.mp hk
  obtain ⟨id, position, hreq⟩ : ∃ id position, k.requirement = .fixed id position := by
    cases hreq : k.requirement with
    | fixed id position => exact ⟨id, position, rfl⟩
    | _ =>
      rw [hreq] at hfixed
      cases hfixed
  rw [hreq] at hfound
  obtain ⟨e, he, href⟩ := hs.contains_iff.mp (hfound _ (List.mem_singleton_self _))
  cases e with
  | line | circle | arc => cases href
  | point p =>
    have hp : s.point? id = some p := hs.point?_eq_some_iff.mpr ⟨he, EntityRef.point.inj href⟩
    cases hfree : p.fixed with
    | true => exact List.ne_nil_of_mem (hs.mem_pins_of_fixed he hfree)
    | false =>
      refine Pins.foldl_hold_ne_nil (Or.inr ?_)
      refine List.ne_nil_of_mem (a := (id, position)) (List.mem_filterMap.mpr ⟨k, hk, ?_⟩)
      simp only [heldBy?, hreq, hp, hactive, Option.any_some, hfree, Bool.not_false, Bool.and_self,
        if_true]

theorem requires_of_mem_active {k : Constraint α} (hk : k ∈ s.active)
    {form : Requirement α → Bool} (hform : form k.requirement = true) : s.requires form = true :=
  List.any_eq_true.mpr ⟨k, hk, hform⟩

/-! ### The rules -/

variable [Scalar α]

/-- What the rules propose, with whether it can be added without asking. -/
inductive Proposes (s : Sketch α) : Requirement α → Bool → Prop where
  | anchor {p : Point α} (held : s.pins = []) (point : .point p ∈ s.entities)
    (drawn : p.construction = false) : Proposes s (.fixed p.id p.position) true
  | horizontal {line : Line} (drawn : line ∈ s.drawnLines)
    (unsettled : s.requires (·.orients line.id) = false) : Proposes s (.horizontal line.id) true
  | vertical {line : Line} (drawn : line ∈ s.drawnLines)
    (unsettled : s.requires (·.orients line.id) = false) : Proposes s (.vertical line.id) true
  | length {line : Line} {segment : Segment α} (drawn : line ∈ s.drawnLines)
    (measured : s.segment? line.id = some segment)
    (unsettled : s.requires (·.sizesLine line) = false) :
    Proposes s (.length line.id segment.length) false
  | radius {curve : CurveId} {radius : α} (drawn : (curve, radius) ∈ s.drawnCurves)
    (unsettled : s.requires (·.sizesCurve curve) = false) : Proposes s (.radius curve radius) false
  | angle {a b : Line} {first second : Segment α} (drawn : (a, b) ∈ Suggestion.pairs s.drawnLines)
    (measured₁ : s.segment? a.id = some first) (measured₂ : s.segment? b.id = some second)
    (unsettled : s.requires (·.relates a.id b.id) = false) :
    Proposes s (.angle a.id b.id (first.direction.angleBetween second.direction)) false

end Sketch

namespace Suggestion

variable [Scalar α] [NumberText α] {s : Sketch α} {suggestion : Suggestion α}

theorem proposes_of_mem_anchors (h : suggestion ∈ anchors s) :
    s.Proposes suggestion.proposed suggestion.autoAddable := by
  obtain ⟨p, hp, rfl⟩ := List.mem_map.mp h
  rw [Option.mem_toList] at hp
  have hp : s.anchorPoint? = some p := hp
  unfold Sketch.anchorPoint? at hp
  split at hp
  next => cases hp
  next hheld =>
    have hheld : s.pins = [] := by simpa using hheld
    have hdrawn : p ∈ s.points.filter (!·.construction) := by
      simp only [Option.orElse_eq_orElse, Option.orElse_eq_or, Option.or_eq_some_iff] at hp
      rcases hp with hfree | ⟨-, hfirst⟩
      · exact List.mem_of_find?_eq_some hfree
      · exact List.mem_of_head? hfirst
    rw [List.mem_filter, Sketch.mem_points_iff, Bool.not_eq_true'] at hdrawn
    exact .anchor hheld hdrawn.1 hdrawn.2

theorem proposes_of_alignment? {snap : α} {line : Line} (hline : line ∈ s.drawnLines)
    (h : alignment? s snap line = some suggestion) :
    s.Proposes suggestion.proposed suggestion.autoAddable := by
  obtain ⟨segment, -, h⟩ := Option.bind_eq_some_iff.mp h
  split at h
  next => cases h
  next hopen =>
    rw [Bool.or_eq_true, not_or, Bool.not_eq_true, Bool.not_eq_true] at hopen
    obtain ⟨⟨proposed, axis, off⟩, haxis, h⟩ := Option.bind_eq_some_iff.mp h
    cases h
    unfold nearAxis? at haxis
    dsimp only at haxis
    split at haxis
    next =>
      cases haxis
      exact .horizontal hline hopen.2
    next =>
      split at haxis
      next =>
        cases haxis
        exact .vertical hline hopen.2
      next => cases haxis

theorem proposes_of_length? {line : Line} (hline : line ∈ s.drawnLines)
    (h : length? s line = some suggestion) :
    s.Proposes suggestion.proposed suggestion.autoAddable := by
  obtain ⟨segment, hsegment, h⟩ := Option.bind_eq_some_iff.mp h
  split at h
  next => cases h
  next hopen =>
    rw [Bool.or_eq_true, not_or, Bool.not_eq_true, Bool.not_eq_true] at hopen
    cases h
    exact .length hline hsegment hopen.2

theorem proposes_of_radius? {curve : CurveId} {radius : α}
    (hcurve : (curve, radius) ∈ s.drawnCurves) (h : radius? s curve radius = some suggestion) :
    s.Proposes suggestion.proposed suggestion.autoAddable := by
  unfold radius? at h
  split at h
  next => cases h
  next hopen =>
    cases h
    exact .radius hcurve (Bool.not_eq_true _ ▸ hopen)

theorem proposes_of_angle? {a b : Line} (hpair : (a, b) ∈ pairs s.drawnLines)
    (h : angle? s a b = some suggestion) :
    s.Proposes suggestion.proposed suggestion.autoAddable := by
  unfold angle? at h
  split at h
  next => cases h
  next hopen =>
    rw [Bool.or_eq_true, Bool.or_eq_true, not_or, not_or] at hopen
    obtain ⟨first, hfirst, h⟩ := Option.bind_eq_some_iff.mp h
    obtain ⟨second, hsecond, h⟩ := Option.bind_eq_some_iff.mp h
    split at h
    next => cases h
    next =>
      cases h
      exact .angle hpair hfirst hsecond (Bool.not_eq_true _ ▸ hopen.1.2)

end Suggestion

namespace Sketch

variable [Scalar α] {s t : Sketch α}

/-- Every suggestion is what one of the rules proposes. -/
theorem proposes_of_mem_suggestions [NumberText α] {c : DiagnosisConfig α}
    {suggestion : Suggestion α} (h : suggestion ∈ s.suggestions c) :
    s.Proposes suggestion.proposed suggestion.autoAddable := by
  have hall : suggestion ∈ Suggestion.all s c.axisSnap :=
    (List.mergeSort_perm ..).mem_iff.mp (List.mem_of_mem_take h)
  simp only [Suggestion.all, List.mem_append, List.mem_filterMap, Prod.exists] at hall
  rcases hall with (((hanchor | ⟨line, hline, halign⟩) | ⟨line, hline, hlength⟩) |
    ⟨curve, radius, hcurve, hradius⟩) | ⟨a, b, hpair, hangle⟩
  · exact Suggestion.proposes_of_mem_anchors hanchor
  · exact Suggestion.proposes_of_alignment? hline halign
  · exact Suggestion.proposes_of_length? hline hlength
  · exact Suggestion.proposes_of_radius? hcurve hradius
  · exact Suggestion.proposes_of_angle? hpair hangle

theorem mem_suggestions_iff [NumberText α] {c : DiagnosisConfig α} {suggestion : Suggestion α}
    (hroom : (Suggestion.all s c.axisSnap).length ≤ c.maxSuggestions) :
    suggestion ∈ s.suggestions c ↔ suggestion ∈ Suggestion.all s c.axisSnap := by
  rw [suggestions, List.take_of_length_le (by rwa [List.length_mergeSort])]
  exact (List.mergeSort_perm ..).mem_iff

variable {r : Requirement α} {auto : Bool}

/-- What is proposed is about drawn geometry. -/
theorem Proposes.drawn (h : s.Proposes r auto) :
    ∀ ref ∈ r.references, ∃ e ∈ s.entities, e.ref = ref ∧ e.isConstruction = false := by
  intro ref href
  cases h with
  | anchor held point drawn =>
    cases List.mem_singleton.mp href
    exact ⟨_, point, rfl, drawn⟩
  | horizontal hline hopen | vertical hline hopen | length hline measured hopen =>
    cases List.mem_singleton.mp href
    obtain ⟨hin, hdrawn⟩ := mem_drawnLines_iff.mp hline
    exact ⟨_, hin, rfl, hdrawn⟩
  | radius hcurve hopen =>
    cases List.mem_singleton.mp href
    rcases mem_drawnCurves hcurve with ⟨c, hc, hdrawn, rfl, -⟩ | ⟨a, ha, hdrawn, rfl, -⟩
    · exact ⟨_, hc, rfl, hdrawn⟩
    · exact ⟨_, ha, rfl, hdrawn⟩
  | angle hpair h₁ h₂ hopen =>
    have hsub := (Suggestion.sublist_of_mem_pairs hpair).subset
    rcases List.mem_pair.mp href with rfl | rfl
    · obtain ⟨hin, hdrawn⟩ := mem_drawnLines_iff.mp (hsub (List.mem_cons_self ..))
      exact ⟨_, hin, rfl, hdrawn⟩
    · obtain ⟨hin, hdrawn⟩ :=
        mem_drawnLines_iff.mp (hsub (List.mem_cons_of_mem _ (List.mem_singleton_self _)))
      exact ⟨_, hin, rfl, hdrawn⟩

theorem Proposes.contains (h : s.Proposes r auto) (hs : s.WellFormed) :
    ∀ ref ∈ r.references, s.contains ref = true := by
  intro ref href
  obtain ⟨e, he, hrefs, -⟩ := h.drawn ref href
  exact hs.contains_iff.mpr ⟨e, he, hrefs⟩

theorem Proposes.repeatsEntity (h : s.Proposes r auto) (hs : s.WellFormed) :
    r.repeatsEntity = false := by
  cases h with
  | angle hpair h₁ h₂ hopen =>
    refine decide_eq_false ?_
    intro hsame
    have hlt := hs.raw_lt_of_mem_pairs hpair
    rw [hsame] at hlt
    exact Nat.lt_irrefl _ hlt
  | anchor | horizontal | vertical | length | radius => rfl

/-! ### What is not proposed again -/

/-- Nothing is proposed that an active constraint on entities of the sketch forestalls. -/
theorem Proposes.not_forestalled (h : s.Proposes r auto) (hs : s.WellFormed) {k : Constraint α}
    (hk : k ∈ s.active) (hfound : ∀ ref ∈ k.requirement.references, s.contains ref = true) :
    ¬ k.requirement.Forestalls r := by
  intro hforestalls
  have hunsettled {form : Requirement α → Bool} (hopen : s.requires form = false)
      (hform : form k.requirement = true) : False := by
    rw [requires_of_mem_active hk hform] at hopen
    cases hopen
  cases h with
  | anchor held => exact hs.pins_ne_nil hk (hforestalls.isFixed rfl) hfound held
  | @horizontal line _ hopen | @vertical line _ hopen =>
    have haligns := hforestalls.alignsWithAxis (l := line.id) (decide_eq_true rfl)
    exact hunsettled hopen (Requirement.orients_of_alignsWithAxis haligns)
  | length _ _ hopen => exact hunsettled hopen hforestalls.sizesLine
  | radius _ hopen => exact hunsettled hopen hforestalls.sizesCurve
  | angle _ _ _ hopen => exact hunsettled hopen hforestalls.relates

end Sketch

end PlaneSketch
