import PlaneSketch.LeastSquares.LevenbergMarquardt
import PlaneSketch.Proofs.Signs

/-!
# Descents

The history of a run of Levenberg–Marquardt (`minimize`) accounts for the point where it stands. The
run moves to a candidate only right after it was evaluated, and only if the residuals there are
finite and the objective is lower; any other candidate leaves it where it is. So on every way out,
with a result or a failure, the point that is left is the last one moved to, and the cost is the
objective there.
-/

namespace PlaneSketch

open Scalar

/-- Half the square of the norm of the residuals. -/
def LeastSquares.objective (p : LeastSquares Float) (x : List Float) : Float :=
  halfSquare (p.residuals x)

/-! ### The objective -/

theorem isMagnitude_foldl_add {total : Float} {terms : List Float}
    (htotal : Binary64.IsMagnitude total) (hterms : ∀ t ∈ terms, Binary64.IsMagnitude t) :
    Binary64.IsMagnitude (terms.foldl (· + ·) total) := by
  induction terms generalizing total with
  | nil => exact htotal
  | cons t rest ih =>
    obtain ⟨ht, hrest⟩ := List.forall_mem_cons.mp hterms
    exact ih (htotal.add ht) hrest

theorem isMagnitude_sumByEights (s₀ s₁ s₂ s₃ s₄ s₅ s₆ s₇ : Float) (terms : List Float)
    (h₀ : Binary64.IsMagnitude s₀) (h₁ : Binary64.IsMagnitude s₁) (h₂ : Binary64.IsMagnitude s₂)
    (h₃ : Binary64.IsMagnitude s₃) (h₄ : Binary64.IsMagnitude s₄) (h₅ : Binary64.IsMagnitude s₅)
    (h₆ : Binary64.IsMagnitude s₆) (h₇ : Binary64.IsMagnitude s₇)
    (hterms : ∀ t ∈ terms, Binary64.IsMagnitude t) :
    Binary64.IsMagnitude (sumByEights s₀ s₁ s₂ s₃ s₄ s₅ s₆ s₇ terms) := by
  fun_induction sumByEights s₀ s₁ s₂ s₃ s₄ s₅ s₆ s₇ terms with
  | case1 s₀ s₁ s₂ s₃ s₄ s₅ s₆ s₇ t₀ t₁ t₂ t₃ t₄ t₅ t₆ t₇ rest ih =>
    simp only [List.forall_mem_cons] at hterms
    obtain ⟨k₀, k₁, k₂, k₃, k₄, k₅, k₆, k₇, hrest⟩ := hterms
    exact ih (h₀.add k₀) (h₁.add k₁) (h₂.add k₂) (h₃.add k₃) (h₄.add k₄) (h₅.add k₅) (h₆.add k₆)
      (h₇.add k₇) hrest
  | case2 s₀ s₁ s₂ s₃ s₄ s₅ s₆ s₇ rest =>
    have hzero : Binary64.IsMagnitude 0.0 := rfl
    have hjoined := (((hzero.add (h₀.add h₄)).add (h₁.add h₅)).add (h₂.add h₆)).add (h₃.add h₇)
    exact isMagnitude_foldl_add hjoined hterms

theorem isMagnitude_halfSquare {residuals : List Float} (h : allFinite residuals = true) :
    Binary64.IsMagnitude (halfSquare residuals) := by
  have hzero : Binary64.IsMagnitude 0.0 := rfl
  have hterms : ∀ t ∈ List.zipWith (· * ·) residuals residuals, Binary64.IsMagnitude t := by
    intro t ht
    rw [List.zipWith_self] at ht
    obtain ⟨r, hr, rfl⟩ := List.mem_map.mp ht
    exact Binary64.isMagnitude_mul_self (List.all_eq_true.mp h r hr)
  refine Binary64.IsMagnitude.half ?_
  exact isMagnitude_sumByEights _ _ _ _ _ _ _ _ _ hzero hzero hzero hzero hzero hzero hzero hzero
    hterms

/-! ### Histories -/

/-- How the history of a run leads from its start to a point. A candidate becomes the point only
right after it was evaluated, with finite residuals and a lower objective; one that does not is
rejected, and the point stays. -/
inductive LeadsTo (p : LeastSquares Float) (start : List Float) :
    List DescentEvent → List Float → Prop
  | started : LeadsTo p start [.evaluated start] start
  | tried {history x} (candidate : List Float) (h : LeadsTo p start history x) :
    LeadsTo p start (.evaluated candidate :: history) x
  | raised {history x} (damping : Float) (h : LeadsTo p start history x) :
    LeadsTo p start (.raised damping :: history) x
  | accepted {history x candidate} (h : LeadsTo p start history x)
    (finite : allFinite (p.residuals candidate) = true)
    (lower : p.objective candidate < p.objective x) :
    LeadsTo p start (.accepted candidate :: .evaluated candidate :: history) candidate
  | reported {history x} (iteration : Nat) (error : Float) (h : LeadsTo p start history x) :
    LeadsTo p start (.reported iteration error :: history) x

def DescentEvent.accepted? : DescentEvent → Option (List Float)
  | .accepted x => some x
  | _ => none

def DescentEvent.isEvaluation : DescentEvent → Bool
  | .evaluated _ => true
  | _ => false

namespace LeadsTo

variable {p : LeastSquares Float} {start x : List Float} {history : List DescentEvent}

theorem eq_headD (h : LeadsTo p start history x) :
    x = (history.filterMap DescentEvent.accepted?).headD start := by
  induction h with
  | started | accepted => rfl
  | tried _ _ ih | raised _ _ ih | reported _ _ _ ih => exact ih

theorem allFinite_residuals (h : LeadsTo p start history x)
    (hstart : allFinite (p.residuals start) = true) : allFinite (p.residuals x) = true := by
  induction h with
  | started => exact hstart
  | accepted _ finite _ _ => exact finite
  | tried _ _ ih | raised _ _ ih | reported _ _ _ ih => exact ih

theorem objective_cases (h : LeadsTo p start history x) :
    history.filterMap DescentEvent.accepted? = [] ∧ x = start ∨
      p.objective x < p.objective start := by
  induction h with
  | started => exact Or.inl ⟨rfl, rfl⟩
  | tried _ _ ih | raised _ _ ih | reported _ _ _ ih => exact ih
  | accepted _ _ lower ih =>
    right
    rcases ih with ⟨-, rfl⟩ | hlower
    · exact lower
    · exact OrderedScalar.lt_of_le_of_lt (OrderedScalar.le_of_lt lower) hlower

end LeadsTo

/-! ### Steps -/

/-- The fields of a standing are what its history and the problem say they are. -/
structure Standing.IsAccounted (s : Standing) (p : LeastSquares Float) (start : List Float) :
    Prop where
  leads : LeadsTo p start s.history s.x
  residuals : s.residuals = p.residuals s.x
  cost : s.cost = p.objective s.x
  iterations : s.iterations = (s.history.filterMap DescentEvent.accepted?).length
  evaluations : s.evaluations = s.history.countP DescentEvent.isEvaluation

namespace Standing.IsAccounted

variable {s : Standing} {p : LeastSquares Float} {start : List Float}

theorem evaluate (h : s.IsAccounted p start) (candidate : List Float) :
    (s.evaluate candidate).IsAccounted p start where
  leads := h.leads.tried candidate
  residuals := h.residuals
  cost := h.cost
  iterations := h.iterations
  evaluations := by
    simp [Standing.evaluate, List.countP_cons, DescentEvent.isEvaluation, h.evaluations]

theorem raise (h : s.IsAccounted p start) (damping : Float) :
    (s.raise damping).IsAccounted p start where
  leads := h.leads.raised damping
  residuals := h.residuals
  cost := h.cost
  iterations := h.iterations
  evaluations := by
    simp [Standing.raise, DescentEvent.isEvaluation, h.evaluations]

theorem accept (h : s.IsAccounted p start) (o : Options Float) {candidate : List Float}
    (finite : allFinite (p.residuals candidate) = true)
    (lower : p.objective candidate < s.cost) :
    ((s.evaluate candidate).accept p o candidate (p.residuals candidate)
      (p.objective candidate)).IsAccounted p start := by
  have hleads := h.leads.accepted finite (h.cost ▸ lower)
  have hcount := (h.evaluate candidate).evaluations
  unfold Standing.accept
  dsimp only
  split
  · exact ⟨hleads.reported _ _, rfl, rfl, congrArg (· + 1) h.iterations, hcount⟩
  · exact ⟨hleads, rfl, rfl, congrArg (· + 1) h.iterations, hcount⟩

end Standing.IsAccounted

def Attempt.standing : Attempt → Standing
  | .ended d => d.final
  | .moved next _ => next

theorem Descent.exists_eq_of_outcome_toRun {d : Descent} {done : Minimization Float}
    (h : d.toRun.outcome = .ok done) : ∃ termination,
      done = ⟨termination, d.final.iterations, d.final.evaluations, d.final.cost⟩ := by
  cases houtcome : d.outcome with
  | error fault => simp [Descent.toRun, houtcome, Except.map] at h
  | ok termination =>
    simp only [Descent.toRun, houtcome, Except.map, Except.ok.injEq] at h
    exact ⟨termination, h.symm⟩

namespace LevenbergMarquardt

/-- A positive share of a predicted reduction is a reduction. -/
theorem lt_of_gainRatio_pos {cost trial predicted : Float}
    (h : 0.0 < gainRatio cost trial predicted) : trial < cost := by
  unfold gainRatio at h
  split at h
  next hpredicted => exact Binary64.lt_of_sub_pos (Binary64.pos_of_div_pos h hpredicted)
  next => exact absurd h (by decide)

/-! ### Runs -/

variable {lm : LevenbergMarquardt} {p : LeastSquares Float} {o : Options Float}

theorem isAccounted_of_attempt {l : Local} {here : Standing} {start : List Float} {mu : Float}
    {raises : Nat} {reached : Attempt} (h : here.IsAccounted p start)
    (hreached : attempt lm p o l here mu raises = reached) :
    reached.standing.IsAccounted p start := by
  subst hreached
  fun_induction attempt lm p o l here mu raises with
  | case1 here mu raises raised unsolved finite ih => exact ih (h.raise raised)
  | case2 => exact h
  | case3 => exact h
  | case4 here mu raises step solved long candidate residuals tried unusable =>
    exact h.evaluate candidate
  | case5 here mu raises step solved long candidate residuals tried usable cost rho gain =>
    have hfinite : allFinite (p.residuals candidate) = true := by simpa using usable
    exact h.accept o hfinite (lt_of_gainRatio_pos gain)
  | case6 here mu raises step solved long candidate residuals tried usable cost rho gain spent =>
    exact h.evaluate candidate
  | case7 here mu raises raised step solved long candidate residuals tried usable cost rho gain
      spent ih =>
    exact ih ((h.evaluate candidate).raise raised)

theorem isAccounted_descend {here : Standing} {start : List Float} {damping? : Option Float}
    (h : here.IsAccounted p start) : (descend lm p o here damping?).final.IsAccounted p start := by
  fun_induction descend lm p o here damping? with
  | case1 | case2 | case3 => exact h
  | case4 here damping? positive columns finite l steep d moved =>
    exact isAccounted_of_attempt h moved
  | case5 here damping? positive columns finite l steep next damping moved further little =>
    exact isAccounted_of_attempt h moved
  | case6 here damping? positive columns finite l steep next damping moved further much spent =>
    exact isAccounted_of_attempt h moved
  | case7 here damping? positive columns finite l steep next damping moved further much spent left
      ih =>
    exact ih (isAccounted_of_attempt h moved)

theorem isAccounted_run (x : List Float) : (lm.run p x o).final.IsAccounted p x := by
  have hstart : Standing.IsAccounted
      ⟨x, p.residuals x, halfSquare (p.residuals x), 0, 1, [.evaluated x]⟩ p x :=
    ⟨LeadsTo.started, rfl, rfl, rfl, rfl⟩
  unfold run
  dsimp only
  split
  · exact hstart
  split
  · exact hstart
  · exact isAccounted_descend hstart

theorem run_of_not_allFinite {x : List Float} (h : allFinite (p.residuals x) = false) :
    lm.run p x o = ⟨.ok .nonFinite, ⟨x, p.residuals x, p.objective x, 0, 1, [.evaluated x]⟩⟩ := by
  simp only [run, h, Bool.not_false, if_true]
  rfl

/-! ### A run of one step -/

/-- Where a descent goes on from a point at which none of its tests ends it. -/
theorem descend_of_attempt {here : Standing} (damping? : Option Float) {reached : Attempt}
    {columns : List (List Float)} (hcolumns : p.jacobianColumns here.x here.residuals = columns)
    (h : attempt lm p o (Local.of columns here.residuals) here
      (damping?.getD (lm.tau * peak (Local.of columns here.residuals).scales)) 0 = reached)
    (positive : ¬here.cost ≤ 2.2250738585072014e-308)
    (finite : ¬(!columns.all allFinite) = true)
    (steep : ¬peakAbs (Local.of columns here.residuals).gradient ≤ o.gtol) :
    descend lm p o here damping? = match (reached : Attempt) with
      | .ended d => d
      | .moved next damping =>
        if here.cost - next.cost ≤ o.ftol * here.cost then ⟨.ok (.converged .objective), next⟩
        else if o.maxEvaluations ≤ next.evaluations then ⟨.ok .maxEvaluations, next⟩
        else descend lm p o next (some damping) := by
  subst hcolumns
  rw [descend, if_neg positive]
  dsimp only
  rw [if_neg finite, if_neg steep]
  split
  next d ended =>
    rw [ended] at h
    subst h
    rfl
  next next damping moved =>
    rw [moved] at h
    subst h
    rfl

/-- A single variable that is to be two. -/
def toTwo : LeastSquares Float where
  variableCount := 1
  residualCount := 1
  residuals x := x.map (· - 2.0)
  aggregate := norm

def onceOnly : Options Float := ⟨1e-8, 1e-8, 1e-8, 1, 0⟩

def toTwoStart : Standing := ⟨[0.0], [-2.0], 2.0, 0, 1, [.evaluated [0.0]]⟩

def toTwoStep : Standing :=
  let x := [1.998001998001998]
  ⟨x, toTwo.residuals x, toTwo.objective x, 1, 2, [.accepted x, .evaluated x, .evaluated [0.0]]⟩

theorem attempt_toTwo : ∃ damping,
    attempt standard toTwo onceOnly (Local.of [[1.0]] [-2.0]) toTwoStart 1e-3 0 =
      .moved toTwoStep damping := by
  have hsolve : standard.solve ((Local.of [[1.0]] [-2.0]).damped 1e-3)
      (Local.of [[1.0]] [-2.0]).downhill = some [1.998001998001998] := by decide +kernel
  have hcandidate : List.zipWith (· + ·) toTwoStart.x [1.998001998001998] =
      [1.998001998001998] := by decide +kernel
  rw [attempt, hsolve]
  dsimp only
  rw [hcandidate, if_neg (by decide +kernel), if_neg (by decide +kernel),
    if_pos (by decide +kernel)]
  exact ⟨_, rfl⟩

theorem run_toTwo : standard.run toTwo [0.0] onceOnly = ⟨.ok .maxEvaluations, toTwoStep⟩ := by
  have hrun : standard.run toTwo [0.0] onceOnly =
      standard.descend toTwo onceOnly toTwoStart none := rfl
  have hcolumns : toTwo.jacobianColumns toTwoStart.x toTwoStart.residuals = [[1.0]] := by
    decide +kernel
  have hdamping : standard.tau * peak (Local.of [[1.0]] toTwoStart.residuals).scales = 1e-3 := by
    decide +kernel
  obtain ⟨damping, hmoved⟩ := attempt_toTwo
  rw [← hdamping] at hmoved
  have hpositive : ¬toTwoStart.cost ≤ 2.2250738585072014e-308 := by decide +kernel
  have hfinite : ¬(!([[1.0]] : List (List Float)).all allFinite) = true := by decide +kernel
  rw [hrun, descend_of_attempt none hcolumns hmoved hpositive hfinite (by decide +kernel)]
  dsimp only
  rw [if_neg (by decide +kernel), if_pos (by decide +kernel)]

/-! ### What a run leaves -/

/-- On every way out, what a run leaves is where its history leads: the start, or the last candidate
that was moved to. The residuals there are finite and the objective is no larger than at the start,
and lower once a candidate was moved to; a result gives the objective there as its cost. -/
theorem run_accounted (lm : LevenbergMarquardt) (p : LeastSquares Float) (start : List Float)
    (o : Options Float) :
    let d := lm.run p start o
    let left := d.toRun.x
    let accepted := d.final.history.filterMap DescentEvent.accepted?
    (allFinite (p.residuals start) = true →
      LeadsTo p start d.final.history left ∧
      left = accepted.headD start ∧
      allFinite (p.residuals left) = true ∧
      p.objective left ≤ p.objective start ∧
      (accepted ≠ [] → p.objective left < p.objective start) ∧
      ∀ done, d.toRun.outcome = .ok done →
        done.cost = p.objective left ∧ done.iterations = accepted.length) ∧
    (allFinite (p.residuals start) = false →
      left = start ∧ d.toRun.outcome = .ok ⟨.nonFinite, 0, 1, p.objective start⟩) := by
  intro d left accepted
  have hd : d.final.IsAccounted p start := isAccounted_run start
  constructor
  · intro hstart
    have hcases := hd.leads.objective_cases
    refine ⟨hd.leads, hd.leads.eq_headD, hd.leads.allFinite_residuals hstart, ?_, ?_, ?_⟩
    · rcases hcases with ⟨-, hx⟩ | hlower
      · have hmagnitude := isMagnitude_halfSquare hstart
        show p.objective d.final.x ≤ p.objective start
        rw [hx]
        exact hmagnitude.le_self
      · exact OrderedScalar.le_of_lt hlower
    · intro hmoved
      rcases hcases with ⟨hstayed, -⟩ | hlower
      · exact absurd hstayed hmoved
      · exact hlower
    · intro done hdone
      obtain ⟨termination, rfl⟩ := Descent.exists_eq_of_outcome_toRun hdone
      exact ⟨hd.cost, hd.iterations⟩
  · intro hstart
    have hrun : d = _ := run_of_not_allFinite hstart
    simp only [left, hrun, Descent.toRun, Except.map, and_self]

theorem run_accounted_toTwo :
    let left := (standard.run toTwo [0.0] onceOnly).toRun.x
    allFinite (toTwo.residuals [0.0]) = true ∧ toTwo.objective left < toTwo.objective [0.0] := by
  have hfinite : allFinite (toTwo.residuals [0.0]) = true := rfl
  have hmoved : (standard.run toTwo [0.0] onceOnly).final.history.filterMap
      DescentEvent.accepted? ≠ [] := by
    rw [run_toTwo]
    exact List.cons_ne_nil _ _
  obtain ⟨-, -, -, -, hlower, -⟩ := (run_accounted standard toTwo [0.0] onceOnly).1 hfinite
  exact ⟨hfinite, hlower hmoved⟩

/-! ### The limit of evaluations -/

theorem evaluations_le_of_attempt {l : Local} {here : Standing} {mu : Float} {raises : Nat}
    {reached : Attempt} (h : attempt lm p o l here mu raises = reached) :
    reached.standing.evaluations ≤ max o.maxEvaluations (here.evaluations + 1) := by
  subst h
  fun_induction attempt lm p o l here mu raises with
  | case1 here mu raises raised unsolved finite ih => exact ih
  | case2 | case3 => exact Nat.le_trans (Nat.le_succ _) (Nat.le_max_right _ _)
  | case4 | case5 | case6 => exact Nat.le_max_right _ _
  | case7 here mu raises raised step solved long candidate residuals tried usable cost rho gain
      spent ih =>
    have htried : tried.evaluations = here.evaluations + 1 := rfl
    have hraised : (tried.raise raised).evaluations = here.evaluations + 1 := rfl
    omega

theorem evaluations_descend_le {here : Standing} {damping? : Option Float} :
    (descend lm p o here damping?).final.evaluations ≤
      max o.maxEvaluations (here.evaluations + 1) := by
  fun_induction descend lm p o here damping? with
  | case1 | case2 | case3 => exact Nat.le_trans (Nat.le_succ _) (Nat.le_max_right _ _)
  | case4 here damping? positive columns finite l steep d moved =>
    exact evaluations_le_of_attempt moved
  | case5 here damping? positive columns finite l steep next damping moved further little =>
    exact evaluations_le_of_attempt moved
  | case6 here damping? positive columns finite l steep next damping moved further much spent =>
    exact evaluations_le_of_attempt moved
  | case7 here damping? positive columns finite l steep next damping moved further much spent left
      ih =>
    omega

theorem evaluations_run_le (x : List Float) :
    (lm.run p x o).final.evaluations ≤ max o.maxEvaluations 2 := by
  have hone : 1 ≤ max o.maxEvaluations 2 := Nat.le_trans (by decide) (Nat.le_max_right _ _)
  unfold run
  dsimp only
  split
  · exact hone
  split
  · exact hone
  · exact evaluations_descend_le

/-- A limit below two is a limit of two: whether it is reached is asked only after a candidate was
evaluated, and the start was evaluated before. -/
theorem attempt_limit {l : Local} {here : Standing} {mu : Float} {raises : Nat}
    (h : 1 ≤ here.evaluations) :
    attempt lm p { o with maxEvaluations := max o.maxEvaluations 2 } l here mu raises =
      attempt lm p o l here mu raises := by
  fun_induction attempt lm p o l here mu raises with
  | case1 here mu raises raised unsolved finite ih =>
    rw [attempt]
    simp only [unsolved, finite, raised, dif_pos]
    exact ih h
  | case2 here mu raises raised unsolved infinite =>
    rw [attempt]
    simp only [unsolved]
    rw [dif_neg infinite]
  | case3 here mu raises step solved short =>
    rw [attempt]
    simp only [solved]
    rw [if_pos short]
  | case4 here mu raises step solved long candidate residuals tried unusable =>
    rw [attempt]
    simp only [solved]
    rw [if_neg long, if_pos unusable]
  | case5 here mu raises step solved long candidate residuals tried usable cost rho gain =>
    rw [attempt]
    simp only [solved]
    rw [if_neg long, if_neg usable, if_pos gain]
    rfl
  | case6 here mu raises step solved long candidate residuals tried usable cost rho gain spent =>
    have hspent : max o.maxEvaluations 2 ≤ tried.evaluations := by
      have htried : tried.evaluations = here.evaluations + 1 := rfl
      omega
    rw [attempt]
    simp only [solved]
    rw [if_neg long, if_neg usable, if_neg gain, dif_pos hspent]
  | case7 here mu raises raised step solved long candidate residuals tried usable cost rho gain
      spent ih =>
    have hleft : ¬max o.maxEvaluations 2 ≤ tried.evaluations := by omega
    rw [attempt]
    simp only [solved]
    rw [if_neg long, if_neg usable, if_neg gain, dif_neg hleft]
    exact ih (Nat.le_add_left _ _)

theorem descend_limit {here : Standing} {damping? : Option Float} (h : 1 ≤ here.evaluations) :
    descend lm p { o with maxEvaluations := max o.maxEvaluations 2 } here damping? =
      descend lm p o here damping? := by
  fun_induction descend lm p o here damping? with
  | case1 here damping? zero =>
    rw [descend, if_pos zero]
  | case2 here damping? positive columns infinite =>
    rw [descend, if_neg positive]
    exact if_pos infinite
  | case3 here damping? positive columns finite l flat =>
    rw [descend, if_neg positive]
    rw [if_neg finite, if_pos flat]
  | case4 here damping? positive columns finite l steep d ended =>
    rw [← attempt_limit h] at ended
    rw [descend_of_attempt _ rfl ended positive finite steep]
  | case5 here damping? positive columns finite l steep next damping moved further little =>
    rw [← attempt_limit h] at moved
    rw [descend_of_attempt _ rfl moved positive finite steep]
    exact if_pos little
  | case6 here damping? positive columns finite l steep next damping moved further much spent =>
    have hspent : max o.maxEvaluations 2 ≤ next.evaluations := by omega
    rw [← attempt_limit h] at moved
    rw [descend_of_attempt _ rfl moved positive finite steep]
    dsimp only
    rw [if_neg much, if_pos hspent]
  | case7 here damping? positive columns finite l steep next damping moved further much spent left
      ih =>
    have hleft : ¬max o.maxEvaluations 2 ≤ next.evaluations := by omega
    rw [← attempt_limit h] at moved
    rw [descend_of_attempt _ rfl moved positive finite steep]
    dsimp only
    rw [if_neg much, if_neg hleft]
    exact ih (by omega)

theorem run_limit (x : List Float) :
    lm.run p x { o with maxEvaluations := max o.maxEvaluations 2 } = lm.run p x o := by
  unfold run
  dsimp only
  rw [descend_limit (Nat.le_refl 1)]

/-- A run evaluates the residuals as often as its history says and as its result reports, and within
the limit, except that a limit below two is taken for two. -/
theorem evaluations_run (lm : LevenbergMarquardt) (p : LeastSquares Float) (start : List Float)
    (o : Options Float) :
    let d := lm.run p start o
    d.final.evaluations = d.final.history.countP DescentEvent.isEvaluation ∧
    d.final.evaluations ≤ max o.maxEvaluations 2 ∧
    (∀ done, d.toRun.outcome = .ok done → done.evaluations = d.final.evaluations) ∧
    lm.run p start { o with maxEvaluations := max o.maxEvaluations 2 } = d := by
  intro d
  refine ⟨(isAccounted_run start).evaluations, evaluations_run_le start, ?_, run_limit start⟩
  intro done hdone
  obtain ⟨termination, rfl⟩ := Descent.exists_eq_of_outcome_toRun hdone
  rfl

/-- With a limit of one, the first candidate is one evaluation too many. -/
theorem exists_over_limit : ∃ done,
    (standard.run toTwo [0.0] onceOnly).toRun.outcome = .ok done ∧
    onceOnly.maxEvaluations = 1 ∧ ¬done.evaluations ≤ onceOnly.maxEvaluations := by
  rw [run_toTwo]
  exact ⟨_, rfl, rfl, by decide⟩

end LevenbergMarquardt

end PlaneSketch
