import PlaneSketch.Proofs.Ending

/-!
# Steady surroundings

Where the residuals and the factorization do not change under its hands, a run taken pass by pass is
the run of Levenberg–Marquardt: it ends in the same way at the same point, with the same counters,
and its calls are the events of the history. The damping is a variable that starts out negative and
never is again, and the factor of a raise is the one for the number of raises since the last step.
-/

namespace PlaneSketch

open Scalar

/-! ### The sign of the damping -/

namespace Binary64

theorem le_self_of_pos {x : Float} (h : 0.0 < x) : x ≤ x := by
  obtain ⟨_, -, key, hkey, -⟩ := (lt_iff_place 0.0 x).mp h
  exact (le_iff_place x x).mpr ⟨key, hkey, key, hkey, le_refl key⟩

theorem larger_pos_left {x : Float} (hx : 0.0 < x) (y : Float) : 0.0 < larger x y := by
  unfold larger
  split
  · exact hx
  · split
    next hle => exact OrderedScalar.lt_of_lt_of_le hx hle
    · rw [if_pos (le_self_of_pos hx)]
      exact hx

theorem larger_pos_right (x : Float) {y : Float} (hy : 0.0 < y) : 0.0 < larger x y := by
  unfold larger
  split
  next hle => exact OrderedScalar.lt_of_lt_of_le hy hle
  next hbelow =>
    split
    · exact hy
    next habove =>
      split
      next hself =>
        rcases OrderedScalar.total x y hself (le_self_of_pos hy) with h | h
        · exact absurd h habove
        · exact absurd h hbelow
      · exact hy

theorem peak_pos {xs : List Float} (h : ∀ x ∈ xs, 0.0 < x) : xs = [] ∨ 0.0 < peak xs := by
  have hfold (xs : List Float) (best : Float) (hbest : 0.0 < best) (h : ∀ x ∈ xs, 0.0 < x) :
      0.0 < xs.foldl (fun best y => if y ≤ best then best else y) best := by
    induction xs generalizing best with
    | nil => exact hbest
    | cons y rest ih =>
      obtain ⟨hy, hrest⟩ := List.forall_mem_cons.mp h
      refine ih _ ?_ hrest
      dsimp only
      split
      · exact hbest
      · exact hy
  cases xs with
  | nil => exact Or.inl rfl
  | cons x rest =>
    obtain ⟨hx, hrest⟩ := List.forall_mem_cons.mp h
    exact Or.inr (hfold rest x hx hrest)

end Binary64

theorem dampingGrowth_pos (raises : Nat) : 0.0 < dampingGrowth raises := by
  rw [Binary64.zero_lt_iff]
  by_cases h : raises < 1023
  · rw [dampingGrowth_eq_power h]
    show Binary64.IsPositive (Float.Model.pack (Binary64.power (raises - 51))).unpack
    rw [Binary64.unpack_pack_power (by omega) (by omega)]
    trivial
  · rw [dampingGrowth, if_neg h]
    exact trivial

namespace LevenbergMarquardt

theorem not_relaxed_lt_zero {mu : Float} (h : ¬mu < 0.0) (rho : Float) : ¬relaxed mu rho < 0.0 :=
  Binary64.not_mul_lt_zero h (Binary64.larger_pos_left (by decide) _)

theorem scales_pos (columns : List (List Float)) (residuals : List Float) :
    ∀ scale ∈ (Local.of columns residuals).scales, 0.0 < scale := by
  intro scale hscale
  obtain ⟨d, -, rfl⟩ := List.mem_map.mp hscale
  exact Binary64.larger_pos_right _ (Binary64.larger_pos_right _ (by decide))

theorem not_first_lt_zero (columns : List (List Float)) (residuals : List Float) :
    ¬1e-3 * peak (Local.of columns residuals).scales < 0.0 := by
  rcases Binary64.peak_pos (scales_pos columns residuals) with hnone | hpos
  · rw [hnone]
    decide
  · exact Binary64.not_mul_lt_zero (by decide) hpos

end LevenbergMarquardt

/-! ### Calls and events -/

/-- The event of a history that a call is. -/
def Call.event? : Call → Option DescentEvent
  | .evaluated x _ => some (.evaluated x)
  | .moved x => some (.accepted x)
  | .aggregated .. => none
  | .reported iteration error => some (.reported iteration error)

def DescentEvent.isRaise : DescentEvent → Bool
  | .raised _ => true
  | _ => false

/-- The calls are the events of a history other than raises. -/
def Tells (calls : List Call) (history : List DescentEvent) : Prop :=
  calls.filterMap Call.event? = history.filter (!·.isRaise)

namespace Tells

variable {calls : List Call} {history : List DescentEvent}

theorem evaluated (h : Tells calls history) (x residuals : List Float) :
    Tells (.evaluated x residuals :: calls) (.evaluated x :: history) :=
  congrArg (DescentEvent.evaluated x :: ·) h

theorem raised (h : Tells calls history) (damping : Float) :
    Tells calls (.raised damping :: history) := h

theorem accepted (h : Tells calls history) (x : List Float) :
    Tells (.moved x :: calls) (.accepted x :: history) :=
  congrArg (DescentEvent.accepted x :: ·) h

theorem reported (h : Tells calls history) (residuals : List Float) (iteration : Nat)
    (error : Float) :
    Tells (.reported iteration error :: .aggregated residuals error :: calls)
      (.reported iteration error :: history) :=
  congrArg (DescentEvent.reported iteration error :: ·) h

end Tells

/-- Where a run stands before its first step. -/
def Standing.atStart (p : LeastSquares Float) (x : List Float) : Standing :=
  ⟨x, p.residuals x, halfSquare (p.residuals x), 0, 1, [.evaluated x]⟩

namespace LevenbergMarquardt

open Surroundings

variable {p : LeastSquares Float} {solve : List (List Float) → List Float → Option (List Float)}
  {o : Options Float} {tau : Float}

/-- A standing with the variables of a run that it leaves out. -/
abbrev Position.of (here : Standing) (damping growth : Float) (near? : Option Local) : Position :=
  ⟨here.x, here.residuals, here.cost, here.iterations, here.evaluations, damping, growth, near?⟩

theorem jacobianColumnsM_still (x residuals : List Float) :
    jacobianColumnsM (still p solve).watched.probe x residuals =
      pure (p.jacobianColumns x residuals) := by
  have hprobe : (still p solve).watched.probe = fun x => pure (p.residuals x) := rfl
  rw [hprobe]
  unfold LeastSquares.jacobianColumns jacobianColumnsM
  simp only [pure_bind, List.mapM_pure]
  rfl

theorem run_survey_still (here : Standing) (damping growth : Float) (calls : List Call) :
    (pass (still p solve).watched o tau (.of here damping growth none)).run ((), calls) =
      if here.cost ≤ 2.2250738585072014e-308 then
        (.done (.ok (.converged .zeroResidual)) (.of here damping growth none), ((), calls))
      else
        (surveyed o tau (.of here damping growth none) (p.jacobianColumns here.x here.residuals),
          ((), calls)) := by
  show (survey _ o tau (.of here damping growth none)).run _ = _
  unfold survey
  split
  · rfl
  · rw [jacobianColumnsM_still, pure_bind]
    rfl

/-- The calls after a step, with the report if one is due. -/
def reportCalls (p : LeastSquares Float) (o : Options Float) (next : Position)
    (calls : List Call) : List Call :=
  if isDue o.progressInterval next.iterations then
    let error := p.aggregate next.residuals
    .reported next.iterations error :: .aggregated next.residuals error :: calls
  else calls

theorem run_report_still (next : Position) (calls : List Call) :
    (report (still p solve).watched o next).run ((), calls) =
      ((), ((), reportCalls p o next calls)) := by
  unfold report reportCalls
  split <;> rfl

theorem run_residuals_still (x : List Float) (calls : List Call) :
    ((still p solve).watched.residuals x).run ((), calls) =
      (p.residuals x, ((), .evaluated x (p.residuals x) :: calls)) := rfl

theorem run_pass_still {here : Standing} {mu growth : Float} {l : Local} (calls : List Call) :
    (pass (still p solve).watched o tau (.of here mu growth (some l))).run ((), calls) =
      match solve (l.damped mu) l.downhill with
      | none => (unsolved (.of here mu growth (some l)), ((), calls))
      | some step =>
        if norm step ≤ o.xtol * (norm here.x + o.xtol) then
          (.done (.ok (.converged .step)) (.of here mu growth (some l)), ((), calls))
        else
          let candidate := List.zipWith (· + ·) here.x step
          let residuals := p.residuals candidate
          let tried := .of (here.evaluate candidate) mu growth (some l)
          let calls := .evaluated candidate residuals :: calls
          if !allFinite residuals then (.done (.ok .nonFinite) tried, ((), calls))
          else
            let cost := halfSquare residuals
            let rho := gainRatio here.cost cost (l.predicted mu step)
            if 0.0 < rho then
              let next := tried.accept candidate residuals cost rho
              (settle o here.cost next, ((), reportCalls p o next (.moved candidate :: calls)))
            else (rejected o (.of here mu growth (some l)), ((), calls)) := by
  have hsolve : (still p solve).watched.solve (l.damped mu) l.downhill =
    pure (solve (l.damped mu) l.downhill) := rfl
  have hmove (x : List Float) (calls : List Call) :
      ((still p solve).watched.move x).run ((), calls) = ((), ((), .moved x :: calls)) := rfl
  show (tryStep _ o l (.of here mu growth (some l))).run _ = _
  unfold tryStep
  dsimp only [Position.of]
  rw [hsolve, pure_bind]
  cases solve (l.damped mu) l.downhill with
  | none => rfl
  | some step =>
    dsimp only
    by_cases short : norm step ≤ o.xtol * (norm here.x + o.xtol)
    · rw [if_pos short, if_pos short]
      rfl
    rw [if_neg short, if_neg short, run_bind_eq (run_residuals_still _ calls)]
    generalize List.zipWith (· + ·) here.x step = candidate
    split
    · rfl
    split
    · rw [run_bind_eq (hmove candidate _), run_bind_eq (run_report_still _ _)]
      rfl
    · rfl

/-! ### Steps that are tried -/

variable {lm : LevenbergMarquardt}

theorem not_lt_zero_of_attempt {l : Local} {here next : Standing} {mu damping : Float}
    {raises : Nat} (h : attempt lm p o l here mu raises = .moved next damping)
    (hmu : ¬mu < 0.0) : ¬damping < 0.0 := by
  fun_induction attempt lm p o l here mu raises with
  | case1 here mu raises raised unsolved finite ih =>
    exact ih h (Binary64.not_mul_lt_zero hmu (dampingGrowth_pos raises))
  | case5 here mu raises step solved long candidate residuals tried usable cost rho gain =>
    cases h
    exact not_relaxed_lt_zero hmu rho
  | case7 here mu raises raised step solved long candidate residuals tried usable cost rho gain
      spent ih =>
    exact ih h (Binary64.not_mul_lt_zero hmu (dampingGrowth_pos raises))
  | _ => simp at h

/-- Some passes lead from a position, and the calls before it, to where a run is afterwards. -/
def Reaches (p : LeastSquares Float)
    (solve : List (List Float) → List Float → Option (List Float)) (o : Options Float) (tau : Float)
    (here : Position) (calls : List Call) (last : Pass) (later : List Call) : Prop :=
  ∃ n, (passes (still p solve).watched o tau n (.going here)).run ((), calls) = (last, ((), later))

namespace Reaches

variable {here next : Position} {calls later latest : List Call} {last : Pass}

theorem of_pass
    (h : (pass (still p solve).watched o tau here).run ((), calls) = (last, ((), later))) :
    Reaches p solve o tau here calls last later := by
  refine ⟨1, ?_⟩
  rw [run_passes_succ, h]
  rfl

theorem trans (h : Reaches p solve o tau here calls (.going next) later)
    (hnext : Reaches p solve o tau next later last latest) :
    Reaches p solve o tau here calls last latest := by
  obtain ⟨m, hm⟩ := h
  obtain ⟨n, hn⟩ := hnext
  refine ⟨m + n, ?_⟩
  rw [run_passes_add, hm]
  exact hn

end Reaches

/-- Where the passes are that did what an attempt does. -/
def IsAfter (o : Options Float) (previous : Float) : Attempt → Pass → Prop
  | .ended d, last =>
    ∃ damping growth near?, last = .done d.outcome (.of d.final damping growth near?)
  | .moved next damping, last => last = settle o previous (.of next damping 2.0 none)

theorem raise_of (here : Standing) (mu : Float) (raises : Nat) (near? : Option Local) :
    (Position.of here mu (dampingGrowth raises) near?).raise =
      .of here (mu * dampingGrowth raises) (dampingGrowth (raises + 1)) near? := by
  unfold Position.raise
  rw [dampingGrowth_succ]

theorem unsolved_of (here : Standing) (mu : Float) (raises : Nat) (near? : Option Local) :
    unsolved (.of here mu (dampingGrowth raises) near?) =
      let raised := mu * dampingGrowth raises
      let next : Position := .of here raised (dampingGrowth (raises + 1)) near?
      if raised.isFinite then .going next
      else .done (.error (.linearSolve "normal equations stayed indefinite")) next := by
  unfold unsolved
  rw [raise_of]

theorem rejected_of (here : Standing) (candidate : List Float) (mu : Float) (raises : Nat)
    (near? : Option Local) :
    rejected o (.of here mu (dampingGrowth raises) near?) =
      let tried := here.evaluate candidate
      let raised := mu * dampingGrowth raises
      let next : Position := .of tried raised (dampingGrowth (raises + 1)) near?
      if o.maxEvaluations ≤ tried.evaluations then .done (.ok .maxEvaluations) next
      else .going next := by
  have hraise := raise_of (here.evaluate candidate) mu raises near?
  have htried : (Position.of here mu (dampingGrowth raises) near?).tried =
    .of (here.evaluate candidate) mu (dampingGrowth raises) near? := rfl
  unfold rejected
  rw [htried, hraise]

theorem tells_accept {here : Standing} {candidate residuals : List Float} {calls : List Call}
    (h : Tells calls here.history) (cost rho mu growth : Float) (near? : Option Local) :
    Tells
      (reportCalls p o ((Position.of here mu growth near?).accept candidate residuals cost rho)
        (.moved candidate :: calls))
      (here.accept p o candidate residuals cost).history := by
  have hmoved := h.accepted candidate
  unfold reportCalls
  split
  next due =>
    have hhistory : (here.accept p o candidate residuals cost).history =
        .reported (here.iterations + 1) (p.aggregate residuals) :: .accepted candidate ::
          here.history := if_pos due
    rw [hhistory]
    exact hmoved.reported residuals _ _
  next early =>
    have hhistory : (here.accept p o candidate residuals cost).history =
        .accepted candidate :: here.history := if_neg early
    rw [hhistory]
    exact hmoved

theorem reaches_attempt (tau : Float) {l : Local} {here : Standing} {mu : Float} {raises : Nat}
    {reached : Attempt} (h : attempt lm p o l here mu raises = reached) :
    ∀ calls, Tells calls here.history → ∃ last later,
      Reaches p lm.solve o tau (.of here mu (dampingGrowth raises) (some l)) calls last later ∧
      IsAfter o here.cost reached last ∧ Tells later reached.standing.history := by
  subst h
  fun_induction attempt lm p o l here mu raises with
  | case1 here mu raises raised unsolved finite ih =>
    intro calls htells
    obtain ⟨last, later, hnext, hreached, htells⟩ := ih calls (htells.raised raised)
    refine ⟨last, later, Reaches.trans (Reaches.of_pass ?_) hnext, hreached, htells⟩
    rw [run_pass_still, unsolved, unsolved_of]
    dsimp only
    rw [if_pos finite]
    rfl
  | case2 here mu raises raised unsolved infinite =>
    intro calls htells
    refine ⟨.done _ (.of here raised (dampingGrowth (raises + 1)) (some l)), calls,
      Reaches.of_pass ?_, ⟨_, _, _, rfl⟩, htells⟩
    rw [run_pass_still, unsolved, unsolved_of]
    dsimp only
    rw [if_neg infinite]
  | case3 here mu raises step solved short =>
    intro calls htells
    refine ⟨.done _ (.of here mu (dampingGrowth raises) (some l)), calls,
      Reaches.of_pass ?_, ⟨_, _, _, rfl⟩, htells⟩
    rw [run_pass_still, solved]
    dsimp only
    rw [if_pos short]
  | case4 here mu raises step solved long candidate residuals tried unusable =>
    intro calls htells
    refine ⟨.done _ (.of tried mu (dampingGrowth raises) (some l)), _, Reaches.of_pass ?_,
      ⟨_, _, _, rfl⟩, htells.evaluated candidate residuals⟩
    rw [run_pass_still, solved]
    dsimp only
    rw [if_neg long, if_pos unusable]
  | case5 here mu raises step solved long candidate residuals tried usable cost rho gain =>
    intro calls htells
    have hevaluated : Tells _ tried.history := htells.evaluated candidate residuals
    refine ⟨_, _, Reaches.of_pass ?_, rfl,
      tells_accept hevaluated cost rho mu (dampingGrowth raises) (some l)⟩
    rw [run_pass_still, solved]
    dsimp only
    rw [if_neg long, if_neg usable, if_pos gain]
    rfl
  | case6 here mu raises step solved long candidate residuals tried usable cost rho gain spent =>
    intro calls htells
    -- the damping is raised before the limit is asked for
    refine ⟨.done _ (.of tried (mu * dampingGrowth raises) (dampingGrowth (raises + 1)) (some l)),
      _, Reaches.of_pass ?_, ⟨_, _, _, rfl⟩, htells.evaluated candidate residuals⟩
    rw [run_pass_still, solved]
    dsimp only
    rw [if_neg long, if_neg usable, if_neg gain, rejected_of here candidate]
    dsimp only
    rw [if_pos spent]
  | case7 here mu raises raised step solved long candidate residuals tried usable cost rho gain
      spent ih =>
    intro calls htells
    have hraised : Tells _ (tried.raise raised).history :=
      (htells.evaluated candidate residuals).raised raised
    obtain ⟨last, later, hnext, hreached, htells⟩ := ih _ hraised
    refine ⟨last, later, Reaches.trans (Reaches.of_pass ?_) hnext, hreached, htells⟩
    rw [run_pass_still, solved]
    dsimp only
    rw [if_neg long, if_neg usable, if_neg gain, rejected_of here candidate]
    dsimp only
    rw [if_neg spent]
    rfl

/-! ### Whole runs -/

/-- Which damping a run has that is at a new point: the one of its last step, or a negative one. -/
def IsDamping (damping : Float) : Option Float → Prop
  | none => damping < 0.0
  | some d => damping = d ∧ ¬d < 0.0

namespace IsDamping

variable {damping first : Float} {damping? : Option Float}

theorem getD_eq (h : IsDamping damping damping?) :
    (if damping < 0.0 then first else damping) = damping?.getD first := by
  cases damping? with
  | none => exact if_pos h
  | some d =>
    obtain ⟨rfl, hd⟩ := h
    exact if_neg hd

theorem not_getD_lt_zero (h : IsDamping damping damping?) (hfirst : ¬first < 0.0) :
    ¬damping?.getD first < 0.0 := by
  cases damping? with
  | none => exact hfirst
  | some d => exact h.2

end IsDamping

/-- A run that is at a new point, and does not end there, comes to where its next attempt does. -/
theorem reaches_of_attempt {here : Standing} {damping : Float} {damping? : Option Float}
    {calls : List Call} {l : Local} {reached : Attempt}
    (hdamping : IsDamping damping damping?) (htells : Tells calls here.history)
    (positive : ¬here.cost ≤ 2.2250738585072014e-308)
    (finite : ¬(!(p.jacobianColumns here.x here.residuals).all allFinite) = true)
    (hl : l = Local.of (p.jacobianColumns here.x here.residuals) here.residuals)
    (steep : ¬peakAbs l.gradient ≤ o.gtol)
    (h : attempt lm p o l here (damping?.getD (lm.tau * peak l.scales)) 0 = reached) :
    ∃ last later,
      Reaches p lm.solve o lm.tau (.of here damping 2.0 none) calls last later ∧
      IsAfter o here.cost reached last ∧ Tells later reached.standing.history := by
  obtain ⟨last, later, hlast, hreached, htells⟩ := reaches_attempt lm.tau h calls htells
  refine ⟨last, later, Reaches.trans (Reaches.of_pass ?_) hlast, hreached, htells⟩
  rw [run_survey_still, if_neg positive, surveyed, if_neg finite, ← hl]
  dsimp only
  rw [if_neg steep, hdamping.getD_eq, dampingGrowth_zero]

theorem reaches_descend (htau : lm.tau = 1e-3) {here : Standing} {damping? : Option Float}
    {d : Descent} (h : descend lm p o here damping? = d) :
    ∀ damping calls, IsDamping damping damping? → Tells calls here.history →
      ∃ damping' growth near? later,
        Reaches p lm.solve o lm.tau (.of here damping 2.0 none) calls
          (.done d.outcome (.of d.final damping' growth near?)) later ∧
        Tells later d.final.history := by
  subst h
  fun_induction descend lm p o here damping? with
  | case1 here damping? zero =>
    intro damping calls hdamping htells
    refine ⟨damping, 2.0, none, calls, Reaches.of_pass ?_, htells⟩
    rw [run_survey_still, if_pos zero]
  | case2 here damping? positive columns infinite =>
    intro damping calls hdamping htells
    refine ⟨damping, 2.0, none, calls, Reaches.of_pass ?_, htells⟩
    rw [run_survey_still, if_neg positive, surveyed, if_pos infinite]
  | case3 here damping? positive columns finite l flat =>
    intro damping calls hdamping htells
    refine ⟨damping, 2.0, none, calls, Reaches.of_pass ?_, htells⟩
    rw [run_survey_still, if_neg positive, surveyed, if_neg finite]
    dsimp only
    rw [if_pos flat]
  | case4 here damping? positive columns finite l steep d ended =>
    intro damping calls hdamping htells
    obtain ⟨_, later, hlast, ⟨damping, growth, near?, rfl⟩, htells⟩ :=
      reaches_of_attempt hdamping htells positive finite rfl steep ended
    exact ⟨damping, growth, near?, later, hlast, htells⟩
  | case5 here damping? positive columns finite l steep next fallen moved further little =>
    intro damping calls hdamping htells
    obtain ⟨_, later, hlast, rfl, htells⟩ :=
      reaches_of_attempt hdamping htells positive finite rfl steep moved
    rw [settle, if_pos little] at hlast
    exact ⟨fallen, 2.0, none, later, hlast, htells⟩
  | case6 here damping? positive columns finite l steep next fallen moved further much spent =>
    intro damping calls hdamping htells
    obtain ⟨_, later, hlast, rfl, htells⟩ :=
      reaches_of_attempt hdamping htells positive finite rfl steep moved
    rw [settle, if_neg much, if_pos spent] at hlast
    exact ⟨fallen, 2.0, none, later, hlast, htells⟩
  | case7 here damping? positive columns finite l steep next fallen moved further much spent left
      ih =>
    intro damping calls hdamping htells
    obtain ⟨_, later, hlast, rfl, htells⟩ :=
      reaches_of_attempt hdamping htells positive finite rfl steep moved
    rw [settle, if_neg much, if_neg spent] at hlast
    -- a negative damping would be taken for one that is not chosen yet
    have hfirst : ¬lm.tau * peak l.scales < 0.0 := htau ▸ not_first_lt_zero columns here.residuals
    have hfallen : ¬fallen < 0.0 :=
      not_lt_zero_of_attempt moved (hdamping.not_getD_lt_zero hfirst)
    obtain ⟨damping, growth, near?, latest, hfurther, htells⟩ :=
      ih fallen later ⟨rfl, hfallen⟩ htells
    exact ⟨damping, growth, near?, latest, hlast.trans hfurther, htells⟩

theorem run_start_still (x : List Float) :
    (start (still p solve).watched x).run ((), []) =
      (let here : Position := .of (.atStart p x) (-1.0) 2.0 none
        if !allFinite (p.residuals x) then .done (.ok .nonFinite) here
        else if x.isEmpty then .done (.ok (.converged .step)) here
        else .going here,
        ((), [.evaluated x (p.residuals x)])) := by
  unfold start
  rw [run_bind_eq (run_residuals_still x [])]
  split
  · rfl
  · split <;> rfl

theorem exists_minimize_still (htau : lm.tau = 1e-3) (p : LeastSquares Float) (x : List Float)
    (o : Options Float) :
    ∃ n damping growth near? calls,
      (minimize (still p lm.solve).watched o lm.tau n x).run ((), []) =
        (.done (lm.run p x o).outcome (.of (lm.run p x o).final damping growth near?),
          ((), calls)) ∧
      Tells calls (lm.run p x o).final.history := by
  have htells : Tells [.evaluated x (p.residuals x)] (Standing.atStart p x).history := rfl
  have hrun : lm.run p x o = if !allFinite (p.residuals x) then ⟨.ok .nonFinite, .atStart p x⟩
    else if x.isEmpty then ⟨.ok (.converged .step), .atStart p x⟩
    else lm.descend p o (.atStart p x) none := rfl
  by_cases unusable : (!allFinite (p.residuals x)) = true
  · refine ⟨0, -1.0, 2.0, none, [.evaluated x (p.residuals x)], ?_, ?_⟩
    · rw [run_minimize, run_start_still, hrun, if_pos unusable, if_pos unusable]
      rfl
    · rw [hrun, if_pos unusable]
      exact htells
  by_cases nothing : x.isEmpty = true
  · refine ⟨0, -1.0, 2.0, none, [.evaluated x (p.residuals x)], ?_, ?_⟩
    · rw [run_minimize, run_start_still, hrun, if_neg unusable, if_pos nothing, if_neg unusable,
        if_pos nothing]
      rfl
    · rw [hrun, if_neg unusable, if_pos nothing]
      exact htells
  have hunset : (-1.0 : Float) < 0.0 := by decide
  rw [if_neg unusable, if_neg nothing] at hrun
  obtain ⟨damping, growth, near?, calls, ⟨n, hn⟩, htells⟩ :=
    reaches_descend htau hrun.symm (-1.0) _ hunset htells
  refine ⟨n, damping, growth, near?, calls, ?_, htells⟩
  rw [run_minimize, run_start_still, if_neg unusable, if_neg nothing]
  exact hn

theorem run_minimize_of_done {σ : Type} {w : Surroundings σ} {n : Nat} {x : List Float} {s t : σ}
    {outcome : Except MinimizerFault Termination} {final : Position}
    (h : (minimize w o tau n x).run s = (.done outcome final, t)) (m : Nat) :
    (minimize w o tau (n + m) x).run s = (.done outcome final, t) := by
  rw [run_minimize] at h ⊢
  rw [run_passes_add, h, passes_done]
  rfl

/-- In surroundings that stay the same, a run taken pass by pass is the run: it ends with the same
outcome at the same standing, and its calls are the events of the history. -/
theorem minimize_still (htau : lm.tau = 1e-3) (p : LeastSquares Float) (x : List Float)
    (o : Options Float) :
    ∃ damping growth near? calls,
      (minimize (still p lm.solve).watched o lm.tau (1025 * max o.maxEvaluations 2) x).run
          ((), []) =
        (.done (lm.run p x o).outcome (.of (lm.run p x o).final damping growth near?),
          ((), calls)) ∧
      Tells calls (lm.run p x o).final.history := by
  obtain ⟨n, damping, growth, near?, calls, hn, htells⟩ := exists_minimize_still htau p x o
  obtain ⟨outcome, final, t, hdone, -⟩ :=
    exists_done_minimize (still p lm.solve).watched o lm.tau x ((), [])
  have hmore := run_minimize_of_done hdone n
  rw [Nat.add_comm, run_minimize_of_done hn] at hmore
  refine ⟨damping, growth, near?, calls, ?_, htells⟩
  rw [hmore]
  exact hdone

end LevenbergMarquardt

end PlaneSketch
