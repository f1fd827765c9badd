import Mathlib.Logic.Relation
import PlaneSketch.Proofs.AnyOrder
import PlaneSketch.Proofs.Spread

/-!
# Connected components

The constraints around those that a solve leaves unsatisfied are found in sweeps (`connected_to`). A
sweep goes through the active constraints and takes in each that has a point among those known so
far, and its points are known to the rest of the same sweep; the sweeps end with the first that
finds nothing. What is found then is the connected component: the seeds, and every active constraint
to which a chain of active constraints leads from an active seed, neighbours having a point in
common.
-/

namespace PlaneSketch

variable {α : Type}

namespace Conflict

/-! ### Chains -/

/-- The constraints have a point in common. -/
def SharePoint (s : Sketch α) (k other : Constraint α) : Prop :=
  ∃ p ∈ s.touchedPoints k.requirement, p ∈ s.touchedPoints other.requirement

/-- A chain leads from one constraint to another. All behind the first one are active, and
neighbours have a point in common. -/
def ChainLeads (s : Sketch α) (active : List (Constraint α)) : Constraint α → Constraint α → Prop :=
  Relation.ReflTransGen fun k other => other ∈ active ∧ SharePoint s k other

/-- A chain leads from an active seed to the constraint with this id. -/
def IsReachable (s : Sketch α) (active : List (Constraint α)) (seeds : List ConstraintId)
    (id : ConstraintId) : Prop :=
  ∃ seed ∈ active, seed.id ∈ seeds ∧ ∃ k ∈ active, k.id = id ∧ ChainLeads s active seed k

variable {s : Sketch α} {active : List (Constraint α)} {seeds : List ConstraintId}

/-- An id stands for one of the constraints. -/
def HaveOwnIds (active : List (Constraint α)) : Prop :=
  ∀ k ∈ active, ∀ other ∈ active, k.id = other.id → k = other

theorem haveOwnIds_of_nodup (h : (active.map (·.id)).Nodup) : HaveOwnIds active :=
  fun _ hk _ hother hid => List.inj_on_of_nodup_map h hk hother hid

theorem connected_of_chainLeads {seed k : Constraint α} (hseed : seed ∈ active)
    (hin : seed.id ∈ seeds) (h : ChainLeads s active seed k) :
    k ∈ active ∧ Connected s active seeds k.id := by
  induction h with
  | refl => exact ⟨hseed, .seed hin⟩
  | tail _ hstep ih =>
    obtain ⟨hother, p, hp, hshared⟩ := hstep
    exact ⟨hother, .share ih.2 ih.1 hp hother hshared⟩

theorem connected_iff (hids : HaveOwnIds active) (id : ConstraintId) :
    Connected s active seeds id ↔ id ∈ seeds ∨ IsReachable s active seeds id := by
  constructor
  · intro h
    induction h with
    | seed hin => exact Or.inl hin
    | @share k other p _ hk hp hother hshared ih =>
      have hstep : other ∈ active ∧ SharePoint s k other := ⟨hother, p, hp, hshared⟩
      rcases ih with hin | ⟨seed, hseed, hin, last, hlast, hid, hchain⟩
      · exact Or.inr ⟨k, hk, hin, other, hother, rfl, .single hstep⟩
      · obtain rfl : last = k := hids last hlast k hk hid
        exact Or.inr ⟨seed, hseed, hin, other, hother, rfl, hchain.tail hstep⟩
  · intro h
    rcases h with hin | ⟨seed, hseed, hin, k, -, rfl, hchain⟩
    · exact .seed hin
    · exact (connected_of_chainLeads hseed hin hchain).2

theorem isReachable_congr {order : List (Constraint α)} (h : SameMembers order active)
    (id : ConstraintId) : IsReachable s order seeds id ↔ IsReachable s active seeds id := by
  have hchain : ChainLeads s order = ChainLeads s active := by
    unfold ChainLeads
    simp only [h _]
  unfold IsReachable
  simp only [h _, hchain]

/-! ### Sweeps -/

/-- The ids of some constraints, each with the points it touches. -/
def touches (s : Sketch α) (active : List (Constraint α)) : List (ConstraintId × List PointId) :=
  active.map fun k => (k.id, s.touchedPoints k.requirement)

/-- What is known before the first sweep: the seeds, and the points of those that are active. -/
def seeded (s : Sketch α) (active : List (Constraint α)) (seeds : List ConstraintId) :
    List ConstraintId × List PointId :=
  (seeds, ((touches s active).filter (·.1 ∈ seeds)).flatMap (·.2))

/-- Sweep after sweep, up to the first one that finds no constraint, ends with what is known
then. -/
inductive SweepsTo (touched : List (ConstraintId × List PointId)) :
    List ConstraintId × List PointId → List ConstraintId × List PointId → Prop
  | last {found} (same : (reachFrom touched found).1.length = found.1.length) :
    SweepsTo touched found (reachFrom touched found)
  | again {found final} (more : (reachFrom touched found).1.length ≠ found.1.length)
    (rest : SweepsTo touched (reachFrom touched found) final) : SweepsTo touched found final

section Sweeps

variable {touched part : List (ConstraintId × List PointId)}
  {found final : List ConstraintId × List PointId}

/-- A sweep has nothing to do at the entry: it is found, or none of its points is known. -/
def IsPassedOver (found : List ConstraintId × List PointId)
    (entry : ConstraintId × List PointId) : Prop :=
  entry.1 ∈ found.1 ∨ ∀ p ∈ entry.2, p ∉ found.2

theorem reachFrom_entry_cases (found : List ConstraintId × List PointId)
    (entry : ConstraintId × List PointId) :
    (reachFrom [entry] found = found ∧ IsPassedOver found entry) ∨
      (reachFrom [entry] found = (entry.1 :: found.1, entry.2 ++ found.2) ∧ entry.1 ∉ found.1) := by
  obtain ⟨ids, points⟩ := found
  obtain ⟨id, own⟩ := entry
  show ((if (decide (id ∉ ids) && own.any (· ∈ points)) = true then _ else _) = _ ∧ _) ∨
    ((if (decide (id ∉ ids) && own.any (· ∈ points)) = true then _ else _) = _ ∧ _)
  split
  next hnew =>
    simp only [Bool.and_eq_true, decide_eq_true_eq] at hnew
    exact Or.inr ⟨rfl, hnew.1⟩
  next hpassed =>
    refine Or.inl ⟨rfl, ?_⟩
    by_cases hid : id ∈ ids
    · exact Or.inl hid
    · right
      simpa [hid] using hpassed

/-- What holds before a sweep holds behind it if it outlasts every constraint that is found. -/
theorem reachFrom_induction {holds : List ConstraintId × List PointId → Prop} (hstart : holds found)
    (hstep : ∀ reached, holds reached → ∀ entry ∈ touched, entry.1 ∉ reached.1 →
      holds (entry.1 :: reached.1, entry.2 ++ reached.2)) :
    holds (reachFrom touched found) := by
  refine List.foldlRecOn (motive := holds) _ _ hstart ?_
  intro reached hreached entry hentry
  show holds (reachFrom [entry] reached)
  rcases reachFrom_entry_cases reached entry with ⟨hsame, -⟩ | ⟨hmore, hnew⟩
  · rwa [hsame]
  · rw [hmore]
    exact hstep reached hreached entry hentry hnew

theorem ids_subset_reachFrom (touched : List (ConstraintId × List PointId))
    (found : List ConstraintId × List PointId) : found.1 ⊆ (reachFrom touched found).1 := by
  let IsKept (reached : List ConstraintId × List PointId) : Prop := found.1 ⊆ reached.1
  have hstart : IsKept found := List.Subset.refl found.1
  refine reachFrom_induction hstart ?_
  intro reached hreached entry _ _
  exact List.subset_cons_of_subset _ hreached

theorem countP_lt_of_found {entry : ConstraintId × List PointId} {ids : List ConstraintId}
    (hentry : entry ∈ touched) (hnew : entry.1 ∉ ids) :
    touched.countP (·.1 ∉ entry.1 :: ids) < touched.countP (·.1 ∉ ids) := by
  refine countP_lt_of_imp ?_ hentry ?_ ?_
  · intro other
    simp only [decide_eq_true_eq, List.mem_cons, not_or]
    exact And.right
  · simp
  · simpa using hnew

/-- A sweep over some entries finds nothing, and passes all of them over, or it finds something, and
fewer entries are left to be found. -/
theorem reachFrom_cases (hpart : part ⊆ touched) (found : List ConstraintId × List PointId) :
    (reachFrom part found = found ∧ ∀ entry ∈ part, IsPassedOver found entry) ∨
      (found.1.length < (reachFrom part found).1.length ∧
        touched.countP (·.1 ∉ (reachFrom part found).1) < touched.countP (·.1 ∉ found.1)) := by
  induction part generalizing found with
  | nil => exact Or.inl ⟨rfl, nofun⟩
  | cons entry rest ih =>
    obtain ⟨hentry, hrest⟩ := List.cons_subset.mp hpart
    have hsweep : reachFrom (entry :: rest) found = reachFrom rest (reachFrom [entry] found) := rfl
    rw [hsweep]
    rcases reachFrom_entry_cases found entry with ⟨hsame, hpassed⟩ | ⟨hmore, hnew⟩
    · rw [hsame]
      exact (ih hrest found).imp_left fun ⟨hround, hall⟩ =>
        ⟨hround, List.forall_mem_cons.mpr ⟨hpassed, hall⟩⟩
    · right
      have hlonger : found.1.length < (entry.1 :: found.1).length := Nat.lt_succ_self _
      have hfewer := countP_lt_of_found hentry hnew
      rw [hmore]
      rcases ih hrest (entry.1 :: found.1, entry.2 ++ found.2) with ⟨hround, -⟩ | hround
      · rw [hround]
        exact ⟨hlonger, hfewer⟩
      · exact ⟨Nat.lt_trans hlonger hround.1, Nat.lt_trans hround.2 hfewer⟩

theorem settles_reachFrom (touched : List (ConstraintId × List PointId))
    (found : List ConstraintId × List PointId) :
    Settles (reachFrom touched) found
      (Nat.repeat (reachFrom touched) touched.length found) := by
  refine settles_repeat (fun found => touched.countP (·.1 ∉ found.1)) ?_ List.countP_le_length
  intro found hchanges
  have hsweep := reachFrom_cases (List.Subset.refl touched) found
  exact (hsweep.resolve_left fun h => hchanges h.1).2

theorem sweepsTo_of_settles (h : Settles (reachFrom touched) found final) :
    SweepsTo touched found final := by
  induction h with
  | @done final hfixed =>
    have hlast : SweepsTo touched final (reachFrom touched final) := .last (by rw [hfixed])
    rwa [hfixed] at hlast
  | @again found final hchanges _ ih =>
    have hsweep := reachFrom_cases (List.Subset.refl touched) found
    obtain ⟨hlonger, -⟩ := hsweep.resolve_left fun h => hchanges h.1
    exact .again (Nat.ne_of_gt hlonger) ih

end Sweeps

/-! ### What is found -/

/-- The points of every active constraint that is found are known. -/
def Covers (s : Sketch α) (active : List (Constraint α))
    (found : List ConstraintId × List PointId) : Prop :=
  ∀ k ∈ active, k.id ∈ found.1 → s.touchedPoints k.requirement ⊆ found.2

theorem covers_seeded : Covers s active (seeded s active seeds) := by
  intro k hk hin p hp
  have hentry : (k.id, s.touchedPoints k.requirement) ∈ touches s active :=
    List.mem_map_of_mem hk
  exact List.mem_flatMap.mpr ⟨_, List.mem_filter.mpr ⟨hentry, decide_eq_true hin⟩, hp⟩

/-- A sweep keeps the invariant at each of its entries. It would not if a constraint could be found
by the id of another one, whose points alone are then known. -/
theorem covers_reachFrom (hids : HaveOwnIds active)
    {found : List ConstraintId × List PointId} (h : Covers s active found) :
    Covers s active (reachFrom (touches s active) found) := by
  refine reachFrom_induction h ?_
  intro reached hreached entry hentry _ k hk hin p hp
  obtain ⟨other, hother, rfl⟩ := List.mem_map.mp hentry
  rcases List.mem_cons.mp hin with hid | hold
  · obtain rfl : k = other := hids k hk other hother hid
    exact List.mem_append_left _ hp
  · exact List.mem_append_right _ (hreached k hk hold hp)

theorem Covers.mem_of_connected {found : List ConstraintId × List PointId}
    (h : Covers s active found) (hfixed : reachFrom (touches s active) found = found)
    (hseeds : seeds ⊆ found.1) {id : ConstraintId} (hid : Connected s active seeds id) :
    id ∈ found.1 := by
  have hpassed : ∀ entry ∈ touches s active, IsPassedOver found entry := by
    rcases reachFrom_cases (List.Subset.refl (touches s active)) found with hall | ⟨hlonger, -⟩
    · exact hall.2
    · rw [hfixed] at hlonger
      exact absurd hlonger (Nat.lt_irrefl _)
  induction hid with
  | seed hin => exact hseeds hin
  | @share k other p _ hk hp hother hshared ih =>
    have hknown : p ∈ found.2 := h k hk ih hp
    have hentry : (other.id, s.touchedPoints other.requirement) ∈ touches s active :=
      List.mem_map_of_mem hother
    exact (hpassed _ hentry).resolve_right fun hnone => hnone p hshared hknown

/-- What is known after the last sweep. -/
def foundFrom (s : Sketch α) (active : List (Constraint α)) (seeds : List ConstraintId) :
    List ConstraintId × List PointId :=
  Nat.repeat (reachFrom (touches s active)) (touches s active).length (seeded s active seeds)

theorem mem_connectedTo_iff_found (id : ConstraintId) :
    id ∈ connectedTo s active seeds ↔ id ∈ (foundFrom s active seeds).1 :=
  mem_ascendingIds_iff ..

theorem covers_foundFrom (hids : HaveOwnIds active) :
    Covers s active (foundFrom s active seeds) ∧ seeds ⊆ (foundFrom s active seeds).1 := by
  unfold foundFrom
  induction (touches s active).length with
  | zero => exact ⟨covers_seeded, List.Subset.refl seeds⟩
  | succ rounds ih =>
    exact ⟨covers_reachFrom hids ih.1, List.Subset.trans ih.2 (ids_subset_reachFrom ..)⟩

theorem mem_connectedTo_iff (hids : HaveOwnIds active) (id : ConstraintId) :
    id ∈ connectedTo s active seeds ↔ id ∈ seeds ∨ IsReachable s active seeds id := by
  rw [← connected_iff hids]
  refine ⟨connected_of_mem_connectedTo, fun h => ?_⟩
  have hcovers : Covers s active (foundFrom s active seeds) ∧ seeds ⊆ (foundFrom s active seeds).1 :=
    covers_foundFrom hids
  have hfixed := (settles_reachFrom (touches s active) (seeded s active seeds)).fixed
  rw [mem_connectedTo_iff_found]
  exact hcovers.1.mem_of_connected hfixed hcovers.2 h

/-- The search for connected constraints ends, and it gives the connected component in strictly
ascending order: the seeds, and the active constraints to which a chain leads from an active seed.
In which order the active constraints are listed, and how often, makes no difference. In a
well-formed sketch all constraints have their own ids (`WellFormed.constraint_ids_nodup`). -/
theorem connectedTo_component (s : Sketch α) {active : List (Constraint α)}
    (hids : HaveOwnIds active) (seeds : List ConstraintId) :
    (∃ final, SweepsTo (touches s active) (seeded s active seeds) final ∧
      connectedTo s active seeds = ascendingIds final.1) ∧
    IdsAscend (connectedTo s active seeds) ∧
    (∀ id, id ∈ connectedTo s active seeds ↔ id ∈ seeds ∨
      ∃ seed ∈ active, seed.id ∈ seeds ∧ ∃ k ∈ active, k.id = id ∧ ChainLeads s active seed k) ∧
    ∀ order, SameMembers order active →
      connectedTo s order seeds = connectedTo s active seeds := by
  refine ⟨⟨foundFrom s active seeds, ?_, rfl⟩, idsAscend_ascendingIds _, ?_, ?_⟩
  · exact sweepsTo_of_settles (settles_reachFrom ..)
  · exact mem_connectedTo_iff hids
  · intro order horder
    have hsame : SameMembers (foundFrom s order seeds).1 (foundFrom s active seeds).1 := by
      intro id
      have hidsOrder : HaveOwnIds order := fun k hk other hother =>
        hids k ((horder k).mp hk) other ((horder other).mp hother)
      rw [← mem_connectedTo_iff_found, ← mem_connectedTo_iff_found,
        mem_connectedTo_iff hidsOrder, mem_connectedTo_iff hids, isReachable_congr horder]
    exact hsame.ascendingIds_eq

end Conflict

/-- Three distances along a chain of points, drawn against the order of the chain, and one apart. -/
def Sketch.chained : Sketch Float :=
  let s := ((empty "chained").addPoint ⟨0.0, 0.0⟩).2
  let s := (((s.addPoint ⟨1.0, 0.0⟩).2.addPoint ⟨2.0, 0.0⟩).2.addPoint ⟨3.0, 0.0⟩).2
  let s := ((s.addPoint ⟨0.0, 9.0⟩).2.addPoint ⟨1.0, 9.0⟩).2
  let s := (s.addConstraint (.distance ⟨2⟩ ⟨3⟩ 1.0)).2
  let s := (s.addConstraint (.distance ⟨1⟩ ⟨2⟩ 1.0)).2
  let s := (s.addConstraint (.distance ⟨0⟩ ⟨1⟩ 1.0)).2
  (s.addConstraint (.distance ⟨4⟩ ⟨5⟩ 1.0)).2

namespace Conflict

open Sketch

theorem connectedTo_component_chained :
    let seeds : List ConstraintId := [⟨7⟩, ⟨2⟩]
    HaveOwnIds chained.active ∧
    connectedTo chained chained.active seeds = [⟨0⟩, ⟨1⟩, ⟨2⟩, ⟨7⟩] ∧
    connectedTo chained chained.active.reverse seeds = [⟨0⟩, ⟨1⟩, ⟨2⟩, ⟨7⟩] ∧
    IsReachable chained chained.active seeds ⟨0⟩ ∧
    ¬IsReachable chained chained.active seeds ⟨3⟩ := by
  intro seeds
  have hids : HaveOwnIds chained.active := haveOwnIds_of_nodup (by decide +kernel)
  have hfound : connectedTo chained chained.active seeds = [⟨0⟩, ⟨1⟩, ⟨2⟩, ⟨7⟩] := by
    decide +kernel
  obtain ⟨-, -, hmem, horder⟩ := connectedTo_component chained hids seeds
  rw [hfound] at hmem horder
  refine ⟨hids, hfound, horder _ fun k => List.mem_reverse, ?_, ?_⟩
  · exact ((hmem ⟨0⟩).mp (by decide)).resolve_left (by decide)
  · intro hreachable
    exact absurd ((hmem ⟨3⟩).mpr (Or.inr hreachable)) (by decide)

end Conflict

end PlaneSketch
