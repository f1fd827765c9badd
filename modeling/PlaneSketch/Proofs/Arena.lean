import PlaneSketch.Proofs.Numbers
import PlaneSketch.Sketch.Edit

/-!
# The arena of ids

Which raw ids are in use, where each of them is found, and which are used up. The ids of entities
and of constraints ascend in the order of the sketch, the counters are above all of them, the index
is the inverse of the list of entities, and a removed id is below the counter but belongs to no
entity. Every look-up (`entity`) is then a search of the list.
-/

namespace PlaneSketch

/-- A sketch as far as ids are given out, found and taken back. -/
structure Arena where
  raws : List Nat
  index : Std.TreeMap Nat Nat
  constraintRaws : List Nat
  nextEntity : Nat
  nextConstraint : Nat
  removed : List Nat

/-- The ids are unique, the index finds each of them, and no removed one is in use. -/
structure Arena.WellFormed (a : Arena) : Prop where
  raws_ascending : a.raws.Pairwise (· < ·)
  raws_below : ∀ raw ∈ a.raws, raw < a.nextEntity
  index_iff : ∀ raw place : Nat, a.index[raw]? = some place ↔ a.raws[place]? = some raw
  removed_below : ∀ raw ∈ a.removed, raw < a.nextEntity
  removed_gone : ∀ raw ∈ a.removed, raw ∉ a.raws
  constraints_ascending : a.constraintRaws.Pairwise (· < ·)
  constraints_below : ∀ raw ∈ a.constraintRaws, raw < a.nextConstraint

namespace Sketch

variable {α : Type}

def arena (s : Sketch α) : Arena :=
  ⟨s.entities.map Entity.raw, s.index, s.constraints.map (·.id.raw), s.nextEntity,
    s.nextConstraint, s.removed⟩

/-- A sketch with a well-formed arena. -/
def WellFormed (s : Sketch α) : Prop := s.arena.WellFormed

/-! ### Look-up -/

variable {s : Sketch α}

theorem WellFormed.index_of_getElem? (h : s.WellFormed) {place : Nat} {e : Entity α}
    (he : s.entities[place]? = some e) : s.index[e.raw]? = some place := by
  refine (h.index_iff e.raw place).mpr ?_
  show (s.entities.map Entity.raw)[place]? = some e.raw
  rw [List.getElem?_map, he]
  rfl

theorem WellFormed.entity?_eq_some_iff (h : s.WellFormed) {raw : Nat} {e : Entity α} :
    s.entity? raw = some e ↔ e ∈ s.entities ∧ e.raw = raw := by
  constructor
  · intro hentity
    obtain ⟨place, hplace, he⟩ := Option.bind_eq_some_iff.mp hentity
    have hraw : (s.entities.map Entity.raw)[place]? = some raw := (h.index_iff raw place).mp hplace
    rw [List.getElem?_map, he] at hraw
    exact ⟨List.mem_of_getElem? he, Option.some.inj hraw⟩
  · rintro ⟨hmem, rfl⟩
    obtain ⟨place, he⟩ := List.getElem?_of_mem hmem
    exact Option.bind_eq_some_iff.mpr ⟨place, h.index_of_getElem? he, he⟩

theorem WellFormed.entity?_eq_find? (h : s.WellFormed) (raw : Nat) :
    s.entity? raw = s.entities.find? (·.raw = raw) := by
  cases hfind : s.entities.find? (·.raw = raw) with
  | some e =>
    have hraw := List.find?_some hfind
    exact h.entity?_eq_some_iff.mpr ⟨List.mem_of_find?_eq_some hfind, of_decide_eq_true hraw⟩
  | none =>
    rw [Option.eq_none_iff_forall_ne_some]
    intro e hentity
    obtain ⟨hmem, hraw⟩ := h.entity?_eq_some_iff.mp hentity
    exact List.find?_eq_none.mp hfind e hmem (decide_eq_true hraw)

theorem WellFormed.entity?_eq_none_iff (h : s.WellFormed) {raw : Nat} :
    s.entity? raw = none ↔ raw ∉ s.entities.map Entity.raw := by
  rw [h.entity?_eq_find?, List.find?_eq_none]
  simp

theorem WellFormed.place_lt (h : s.WellFormed) {raw place : Nat}
    (hplace : s.index[raw]? = some place) : place < s.entities.length := by
  have hraw : (s.entities.map Entity.raw)[place]? = some raw := (h.index_iff raw place).mp hplace
  have hlt := (List.getElem?_eq_some_iff.mp hraw).1
  rwa [List.length_map] at hlt

theorem point?_eq_some_iff_entity? (s : Sketch α) {id : PointId} {p : Point α} :
    s.point? id = some p ↔ s.entity? id.raw = some (.point p) := by
  unfold point?
  split
  next q hq => rw [hq]; simp
  next hne =>
    refine iff_of_false nofun ?_
    intro hp
    exact hne p hp

theorem WellFormed.point?_eq_some_iff (h : s.WellFormed) {id : PointId} {p : Point α} :
    s.point? id = some p ↔ .point p ∈ s.entities ∧ p.id = id := by
  rw [point?_eq_some_iff_entity?, h.entity?_eq_some_iff]
  refine and_congr_right fun _ => ?_
  show p.id.raw = id.raw ↔ p.id = id
  rw [PointId.mk.injEq]

theorem WellFormed.position?_eq_some_iff (h : s.WellFormed) {id : PointId} {position : Vec α} :
    s.position? id = some position ↔
      ∃ p, .point p ∈ s.entities ∧ p.id = id ∧ p.position = position := by
  simp only [position?, Option.map_eq_some_iff, h.point?_eq_some_iff, and_assoc]

theorem constraint?_of_mem_of_nodup (hnodup : (s.constraints.map (·.id)).Nodup) {c : Constraint α}
    (hc : c ∈ s.constraints) : s.constraint? c.id = some c := by
  unfold constraint?
  cases hfind : s.constraints.find? (·.id = c.id) with
  | none => exact absurd (decide_eq_true rfl) (List.find?_eq_none.mp hfind c hc)
  | some d =>
    have hd := List.mem_of_find?_eq_some hfind
    have hsome := List.find?_some hfind
    have hid : d.id = c.id := of_decide_eq_true hsome
    rw [List.inj_on_of_nodup_map hnodup hd hc hid]

theorem WellFormed.constraint_ids_nodup (h : s.WellFormed) :
    (s.constraints.map (·.id)).Nodup := by
  refine List.Nodup.of_map ConstraintId.raw ?_
  rw [List.map_map]
  exact h.constraints_ascending.imp Nat.ne_of_lt

theorem WellFormed.constraint?_of_mem (h : s.WellFormed) {c : Constraint α}
    (hc : c ∈ s.constraints) : s.constraint? c.id = some c :=
  constraint?_of_mem_of_nodup h.constraint_ids_nodup hc

/-! ### The index -/

theorem getElem?_insert_raw (index : Std.TreeMap Nat Nat) (raw place other : Nat) :
    (index.insert raw place)[other]? = if raw = other then some place else index[other]? := by
  rw [Std.TreeMap.getElem?_insert]
  simp only [Nat.compare_eq_eq]

theorem getElem?_foldl_insert (entities : List (Entity α)) (first : Nat)
    (index : Std.TreeMap Nat Nat) (hnodup : (entities.map Entity.raw).Nodup) (raw place : Nat) :
    ((entities.zipIdx first).foldl (fun index (e, place) => index.insert e.raw place) index)[raw]? =
        some place ↔
      (first ≤ place ∧ (entities.map Entity.raw)[place - first]? = some raw) ∨
        (raw ∉ entities.map Entity.raw ∧ index[raw]? = some place) := by
  induction entities generalizing first index with
  | nil => simp
  | cons e rest ih =>
    rw [List.map_cons, List.nodup_cons] at hnodup
    rw [List.zipIdx_cons, List.foldl_cons, ih _ _ hnodup.2, getElem?_insert_raw, List.map_cons,
      List.mem_cons]
    by_cases hraw : e.raw = raw
    · -- the ids are distinct, so the first entity is the only one with its id
      subst hraw
      have hrest : ∀ k : Nat, (rest.map Entity.raw)[k]? ≠ some e.raw := by
        intro k hk
        exact hnodup.1 (List.mem_of_getElem? hk)
      simp only [hrest, and_false, hnodup.1, not_false_eq_true, if_true, true_and, false_or,
        Option.some.injEq, not_true_eq_false, false_and, or_false]
      constructor
      · rintro rfl
        simp
      · rintro ⟨hle, hk⟩
        rcases Nat.exists_eq_add_of_le hle with ⟨d, rfl⟩
        cases d with
        | zero => rfl
        | succ d =>
          rw [Nat.add_sub_cancel_left, List.getElem?_cons_succ] at hk
          exact absurd hk (hrest d)
    · simp only [hraw, if_false, Ne.symm hraw, false_or]
      refine or_congr_left ?_
      constructor
      · rintro ⟨hle, hk⟩
        refine ⟨by omega, ?_⟩
        rwa [show place - first = place - (first + 1) + 1 by omega, List.getElem?_cons_succ]
      · rintro ⟨hle, hk⟩
        rcases Nat.exists_eq_add_of_le hle with ⟨d, rfl⟩
        rw [Nat.add_sub_cancel_left] at hk
        cases d with
        | zero => exact absurd (Option.some.inj hk) hraw
        | succ d =>
          rw [List.getElem?_cons_succ] at hk
          refine ⟨by omega, ?_⟩
          rwa [show first + (d + 1) - (first + 1) = d by omega]

theorem getElem?_indexOf {entities : List (Entity α)} (hnodup : (entities.map Entity.raw).Nodup)
    (raw place : Nat) :
    (indexOf entities)[raw]? = some place ↔ (entities.map Entity.raw)[place]? = some raw := by
  rw [indexOf, getElem?_foldl_insert entities 0 ∅ hnodup raw place]
  simp

/-! ### Growing -/

theorem wellFormed_empty (name : String) : (empty name : Sketch α).WellFormed where
  raws_ascending := List.Pairwise.nil
  raws_below := nofun
  index_iff raw place := by simp [arena, empty]
  removed_below := nofun
  removed_gone := nofun
  constraints_ascending := List.Pairwise.nil
  constraints_below := nofun

theorem raws_push [Scalar α] (s : Sketch α) {make : Nat → Entity α}
    (hmake : (make s.nextEntity).raw = s.nextEntity) :
    (s.push make).arena.raws = s.arena.raws ++ [s.nextEntity] := by
  simp only [Sketch.push, arena, List.map_append, List.map_cons, List.map_nil, hmake]

theorem WellFormed.push [Scalar α] (h : s.WellFormed) {make : Nat → Entity α}
    (hmake : (make s.nextEntity).raw = s.nextEntity) : (s.push make).WellFormed where
  raws_ascending := by
    rw [raws_push s hmake, List.pairwise_append]
    refine ⟨h.raws_ascending, List.pairwise_singleton .., ?_⟩
    intro raw hraw _ hnext
    rw [List.mem_singleton.mp hnext]
    exact h.raws_below raw hraw
  raws_below := by
    intro raw hraw
    rw [raws_push s hmake] at hraw
    rcases List.mem_append.mp hraw with hold | hnew
    · exact Nat.lt_succ_of_lt (h.raws_below raw hold)
    · rw [List.mem_singleton.mp hnew]
      exact Nat.lt_succ_self _
  index_iff raw place := by
    have hfresh : ∀ k : Nat, s.arena.raws[k]? ≠ some s.nextEntity := by
      intro k hk
      exact Nat.lt_irrefl _ (h.raws_below _ (List.mem_of_getElem? hk))
    have hlength : s.arena.raws.length = s.entities.length := List.length_map ..
    rw [raws_push s hmake, List.getElem?_append, hlength]
    show (s.index.insert (make s.nextEntity).raw s.entities.length)[raw]? = some place ↔ _
    rw [hmake, getElem?_insert_raw]
    by_cases hnext : s.nextEntity = raw
    · subst hnext
      rw [if_pos rfl, Option.some.injEq]
      by_cases hlt : place < s.entities.length
      · rw [if_pos hlt]
        exact iff_of_false (Nat.ne_of_gt hlt) (hfresh place)
      · rw [if_neg hlt, List.getElem?_singleton]
        have hge := Nat.le_of_not_lt hlt
        simp only [ite_eq_left_iff, reduceCtorEq, imp_false, not_not]
        omega
    · rw [if_neg hnext]
      refine (h.index_iff raw place).trans ?_
      by_cases hlt : place < s.entities.length
      · rw [if_pos hlt]
      · rw [if_neg hlt, List.getElem?_singleton]
        have hold : s.arena.raws[place]? = none := by
          rw [List.getElem?_eq_none_iff, hlength]
          exact Nat.le_of_not_lt hlt
        simp [hold, hnext]
  removed_below raw hraw := Nat.lt_succ_of_lt (h.removed_below raw hraw)
  removed_gone raw hraw := by
    rw [raws_push s hmake, List.mem_append, List.mem_singleton, not_or]
    exact ⟨h.removed_gone raw hraw, Nat.ne_of_lt (h.removed_below raw hraw)⟩
  constraints_ascending := h.constraints_ascending
  constraints_below := h.constraints_below

theorem WellFormed.skipId [Scalar α] (h : s.WellFormed) : s.skipId.WellFormed where
  raws_ascending := h.raws_ascending
  raws_below raw hraw := Nat.lt_succ_of_lt (h.raws_below raw hraw)
  index_iff := h.index_iff
  removed_below raw hraw := Nat.lt_succ_of_lt (h.removed_below raw hraw)
  removed_gone := h.removed_gone
  constraints_ascending := h.constraints_ascending
  constraints_below := h.constraints_below

theorem constraintRaws_addConstraint [Scalar α] (s : Sketch α) (r : Requirement α) :
    (s.addConstraint r).2.arena.constraintRaws = s.arena.constraintRaws ++ [s.nextConstraint] := by
  simp only [addConstraint, arena, List.map_append, List.map_cons, List.map_nil]

theorem WellFormed.addConstraint [Scalar α] (h : s.WellFormed) (r : Requirement α) :
    (s.addConstraint r).2.WellFormed where
  raws_ascending := h.raws_ascending
  raws_below := h.raws_below
  index_iff := h.index_iff
  removed_below := h.removed_below
  removed_gone := h.removed_gone
  constraints_ascending := by
    rw [constraintRaws_addConstraint, List.pairwise_append]
    refine ⟨h.constraints_ascending, List.pairwise_singleton .., ?_⟩
    intro raw hraw _ hnext
    rw [List.mem_singleton.mp hnext]
    exact h.constraints_below raw hraw
  constraints_below := by
    intro raw hraw
    rw [constraintRaws_addConstraint] at hraw
    rcases List.mem_append.mp hraw with hold | hnew
    · exact Nat.lt_succ_of_lt (h.constraints_below raw hold)
    · rw [List.mem_singleton.mp hnew]
      exact Nat.lt_succ_self _

/-! ### Changes of numbers -/

theorem arena_of_outline {s t : Sketch α} (h : s.outline = t.outline) : s.arena = t.arena := by
  have hraws (u : Sketch α) : u.entities.map Entity.raw = u.outline.entities.map Entity.raw := by
    simp only [outline, List.map_map, Function.comp_def, Entity.outline_raw]
  have hconstraints : s.constraints = t.constraints := congrArg Outline.constraints h
  have hindex : s.index = t.index := congrArg Outline.index h
  have hnext : s.nextEntity = t.nextEntity := congrArg Outline.nextEntity h
  have hnextConstraint : s.nextConstraint = t.nextConstraint := congrArg Outline.nextConstraint h
  have hremoved : s.removed = t.removed := congrArg Outline.removed h
  simp only [arena, hraws, h, hconstraints, hindex, hnext, hnextConstraint, hremoved]

theorem WellFormed.of_outline {s t : Sketch α} (hs : s.WellFormed) (h : s.outline = t.outline) :
    t.WellFormed := by
  unfold WellFormed
  rw [← arena_of_outline h]
  exact hs

/-! ### Shrinking -/

theorem mem_foldl_distinct {β : Type} [DecidableEq β] {b : β} (known more : List β) :
    b ∈ more.foldl (fun known b => if b ∈ known then known else known ++ [b]) known ↔
      b ∈ known ∨ b ∈ more := by
  induction more generalizing known with
  | nil => simp
  | cons next rest ih =>
    rw [List.foldl_cons, ih, List.mem_cons]
    split
    next hin =>
      constructor
      · rintro (hold | hrest)
        · exact Or.inl hold
        · exact Or.inr (Or.inr hrest)
      · rintro (hold | rfl | hrest)
        · exact Or.inl hold
        · exact Or.inl hin
        · exact Or.inr hrest
    next => rw [List.mem_append, List.mem_singleton, or_assoc]

theorem mem_noteRemoved {raw : Nat} (removed raws : List Nat) :
    raw ∈ noteRemoved removed raws ↔ raw ∈ removed ∨ raw ∈ raws :=
  mem_foldl_distinct removed raws

/-- Entities can be taken out when their ids are noted. -/
theorem WellFormed.takeOut (h : s.WellFormed) {entities : List (Entity α)} {gone : List Nat}
    (hsub : entities.Sublist s.entities) (hlive : ∀ raw ∈ gone, raw ∈ s.entities.map Entity.raw)
    (hgone : ∀ raw ∈ gone, raw ∉ entities.map Entity.raw) :
    ({ s with removed := noteRemoved s.removed gone }.withEntities entities).WellFormed := by
  have hraws : (entities.map Entity.raw).Sublist (s.entities.map Entity.raw) := hsub.map _
  have hascending : (entities.map Entity.raw).Pairwise (· < ·) := h.raws_ascending.sublist hraws
  have hnodup : (entities.map Entity.raw).Nodup := hascending.imp Nat.ne_of_lt
  exact {
    raws_ascending := hascending
    raws_below := fun raw hraw => h.raws_below raw (hraws.subset hraw)
    index_iff := fun raw place => getElem?_indexOf hnodup raw place
    removed_below := by
      intro raw hraw
      rcases (mem_noteRemoved s.removed gone).mp hraw with hold | hnew
      · exact h.removed_below raw hold
      · exact h.raws_below raw (hlive raw hnew)
    removed_gone := by
      intro raw hraw
      rcases (mem_noteRemoved s.removed gone).mp hraw with hold | hnew
      · exact fun hin => h.removed_gone raw hold (hraws.subset hin)
      · exact hgone raw hnew
    constraints_ascending := h.constraints_ascending
    constraints_below := h.constraints_below }

/-- Constraints can be taken out. -/
theorem WellFormed.keepConstraints (h : s.WellFormed) {constraints : List (Constraint α)}
    (hsub : (constraints.map (·.id.raw)).Sublist (s.constraints.map (·.id.raw))) :
    { s with constraints := constraints }.WellFormed where
  raws_ascending := h.raws_ascending
  raws_below := h.raws_below
  index_iff := h.index_iff
  removed_below := h.removed_below
  removed_gone := h.removed_gone
  constraints_ascending := h.constraints_ascending.sublist hsub
  constraints_below raw hraw := h.constraints_below raw (hsub.subset hraw)

end Sketch

end PlaneSketch
