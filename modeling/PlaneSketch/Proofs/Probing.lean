import Mathlib.Data.Matrix.Mul
import PlaneSketch.LeastSquares.InPlace
import PlaneSketch.Proofs.Classification
import PlaneSketch.Proofs.Exact

/-!
# One coordinate at a time

What the loop over the columns of a Jacobian (`forward_jacobian`) asks of a problem, whatever the
problem makes of it: it evaluates once for each variable, at the point with that variable alone
moved, and the column is the change of the residuals per unit of the step that was really taken.
Every variable is back in its place before the next one is moved. In exact arithmetic the columns of
an affine problem are those of its matrix.
-/

namespace PlaneSketch

open Scalar

variable {α σ : Type}

namespace Evaluator

/-- At points of `n` coordinates the problem leaves a vector of `m` residuals as long as it was. -/
def Keeps (evaluate : Evaluator α σ) (n m : Nat) : Prop :=
  ∀ x out s, x.length = n → out.length = m → ((evaluate x out).run s).1.length = m

/-- At points of `n` coordinates the problem leaves `r` in a vector of `m` residuals, whatever its
state is and whatever the vector held. -/
def Computes (evaluate : Evaluator α σ) (n m : Nat) (r : List α → List α) : Prop :=
  ∀ x out s, x.length = n → out.length = m → ((evaluate x out).run s).1 = r x

theorem Computes.keeps {evaluate : Evaluator α σ} {n m : Nat} {r : List α → List α}
    (h : evaluate.Computes n m r) (hr : ∀ x, x.length = n → (r x).length = m) :
    evaluate.Keeps n m := by
  intro x out s hx hout
  rw [h x out s hx hout]
  exact hr x hx

theorem run_logged {evaluate : Evaluator α σ} {x out left : List α} {s t : σ}
    (h : (evaluate x out).run s = (left, t)) (log : List (Evaluation α)) :
    (evaluate.logged x out).run (s, log) = (left, (t, log ++ [⟨x, left⟩])) := by
  obtain ⟨rfl, rfl⟩ := Prod.ext_iff.mp h
  rfl

end Evaluator

/-! ### What is measured -/

section Measures

variable [Scalar α]

/-- The column comes from the evaluation, which is one of the problem at the point with the variable
at place `j` alone moved from its value `v`. -/
structure Measures (evaluate : Evaluator α σ) (x origin : List α) (j : Nat) (v : α)
    (e : Evaluation α) (column : List α) : Prop where
  point : e.point = x.set j (v + probeStep v)
  answered : ∃ out s, out.length = origin.length ∧ ((evaluate e.point out).run s).1 = e.residuals
  column : column =
    List.zipWith (fun moved before => (moved - before) / (v + probeStep v - v)) e.residuals origin

/-- The first `k` variables are measured in their order, with one evaluation each. -/
structure MeasuresFirst (evaluate : Evaluator α σ) (x origin : List α) (k : Nat)
    (columns : List (List α)) (log : List (Evaluation α)) : Prop where
  evaluations : log.length = k
  width : columns.length = x.length
  measured : ∀ j v e column, x[j]? = some v → log[j]? = some e → columns[j]? = some column →
    Measures evaluate x origin j v e column

variable {evaluate : Evaluator α σ} {x origin : List α} {columns : List (List α)}
  {log : List (Evaluation α)}

theorem MeasuresFirst.exists_measures
    (h : MeasuresFirst evaluate x origin x.length columns log) {j : Nat} {v : α}
    (hv : x[j]? = some v) :
    ∃ e column, log[j]? = some e ∧ columns[j]? = some column ∧
      Measures evaluate x origin j v e column := by
  obtain ⟨hj, -⟩ := List.getElem?_eq_some_iff.mp hv
  obtain ⟨e, he⟩ : ∃ e, log[j]? = some e := ⟨_, List.getElem?_eq_getElem (by rwa [h.evaluations])⟩
  obtain ⟨column, hcolumn⟩ : ∃ column, columns[j]? = some column :=
    ⟨_, List.getElem?_eq_getElem (by rwa [h.width])⟩
  exact ⟨e, column, he, hcolumn, h.measured j v e column hv he hcolumn⟩

/-- Where the residuals depend on the point alone, the columns are those that are measured without
anything being moved or written over. -/
theorem MeasuresFirst.eq_jacobianColumns
    (h : MeasuresFirst evaluate x origin x.length columns log) {p : LeastSquares α}
    (hp : evaluate.Computes x.length origin.length p.residuals) :
    columns = p.jacobianColumns x origin := by
  rw [LeastSquares.jacobianColumns_eq]
  refine List.ext_getElem (by simp [probes, h.width]) ?_
  intro j hj _
  have hx : j < x.length := h.width ▸ hj
  obtain ⟨e, column, -, hcolumn, hpoint, ⟨out, s, hout, hanswer⟩, hmeasured⟩ :=
    h.exists_measures (List.getElem?_eq_getElem hx)
  have hresiduals : e.residuals = p.residuals (x.set j (x[j] + probeStep x[j])) := by
    rw [← hanswer, hpoint]
    exact hp _ out s (List.length_set ..) hout
  rw [(List.getElem?_eq_some_iff.mp hcolumn).2, hmeasured, hresiduals]
  simp [probes, Probe.column]

end Measures

/-! ### The loop -/

namespace Measuring

variable [Scalar α] {evaluate : Evaluator α σ} {x origin : List α} {k : Nat} {held : Measuring α}
  {log : List (Evaluation α)}

theorem run_measure {j : Nat} {v : α} (hpoint : held.point = x)
    (hv : x[j]? = some v) (hcolumns : held.columns.length = x.length) {left : List α} {s t : σ}
    (hrun : (evaluate (x.set j (v + probeStep v)) held.out).run s = (left, t))
    (hleft : left.length = origin.length) :
    (measure evaluate x origin held j).run s =
      some (⟨x, left, held.columns.set j
        (List.zipWith (fun moved before => (moved - before) / (v + probeStep v - v)) left origin)⟩,
        t) := by
  obtain ⟨hj, hvalue⟩ : ∃ hj : j < x.length, x[j] = v := List.getElem?_eq_some_iff.mp hv
  have hthere : writeAt? held.point j (v + probeStep v) = some (x.set j (v + probeStep v)) := by
    rw [hpoint, writeAt?, if_pos hj]
  have hmoved : (x.set j (v + probeStep v))[j]? = some (v + probeStep v) :=
    List.getElem?_set_self hj
  have hback : writeAt? (x.set j (v + probeStep v)) j v = some x := by
    rw [writeAt?, if_pos (by simpa using hj), List.set_set, ← hvalue, List.set_getElem_self]
  have hplace : ∀ column, writeAt? held.columns j column = some (held.columns.set j column) :=
    fun column => if_pos (hcolumns ▸ hj)
  have hasked : (evaluate.ask (x.set j (v + probeStep v)) held.out).run s = some (left, t) :=
    congrArg some hrun
  simp [measure, hv, hthere, hmoved, hasked, hleft, hplace, hback, Probe.column]

/-- After the first `k` variables the point is back at `x`. -/
structure UpTo (evaluate : Evaluator α σ) (x origin : List α) (k : Nat) (held : Measuring α)
    (log : List (Evaluation α)) : Prop
    extends MeasuresFirst evaluate x origin k held.columns log where
  point : held.point = x
  out : held.out.length = origin.length

theorem UpTo.step (h : UpTo evaluate x origin k held log)
    (hkeeps : evaluate.Keeps x.length origin.length) (hk : k < x.length) (s : σ) :
    ∃ next t log', (measure evaluate x origin held k).run s = some (next, t) ∧
      (measure evaluate.logged x origin held k).run (s, log) = some (next, (t, log')) ∧
      UpTo evaluate x origin (k + 1) next log' := by
  have hv : x[k]? = some x[k] := List.getElem?_eq_getElem hk
  let point := x.set k (x[k] + probeStep x[k])
  obtain ⟨left, t, hrun⟩ : ∃ left t, (evaluate point held.out).run s = (left, t) := ⟨_, _, rfl⟩
  have hleft : left.length = origin.length := by
    have hkept := hkeeps point held.out s (List.length_set ..) h.out
    rwa [hrun] at hkept
  refine ⟨_, t, log ++ [⟨point, left⟩], run_measure h.point hv h.width hrun hleft,
    run_measure h.point hv h.width (Evaluator.run_logged hrun log) hleft, ?_⟩
  refine ⟨⟨by simp [h.evaluations], by simpa using h.width, ?_⟩, rfl, hleft⟩
  -- the columns before are as they were, this one comes from the last evaluation
  intro j v e column hj he hcolumn
  rcases Nat.lt_trichotomy j k with hbefore | rfl | hbehind
  · rw [List.getElem?_append_left (h.evaluations ▸ hbefore)] at he
    rw [List.getElem?_set_ne (Nat.ne_of_gt hbefore)] at hcolumn
    exact h.measured j v e column hj he hcolumn
  · obtain rfl : x[j] = v := Option.some.inj (hv.symm.trans hj)
    rw [← h.evaluations, List.getElem?_concat_length] at he
    rw [List.getElem?_set_self (h.width ▸ hk)] at hcolumn
    cases he
    cases hcolumn
    exact ⟨rfl, ⟨held.out, s, h.out, congrArg Prod.fst hrun⟩, rfl⟩
  · rw [List.getElem?_eq_none (by simp [h.evaluations]; omega)] at he
    cases he

theorem exists_upTo (hkeeps : evaluate.Keeps x.length origin.length) (s : σ)
    {begun : Measuring α} (hbegun : UpTo evaluate x origin 0 begun []) (hk : k ≤ x.length) :
    ∃ held t log, ((List.range k).foldlM (measure evaluate x origin) begun).run s =
        some (held, t) ∧
      ((List.range k).foldlM (measure evaluate.logged x origin) begun).run (s, []) =
        some (held, (t, log)) ∧ UpTo evaluate x origin k held log := by
  induction k with
  | zero => exact ⟨begun, s, [], rfl, rfl, hbegun⟩
  | succ k ih =>
    obtain ⟨held, t, log, hplain, hlogged, hheld⟩ := ih (Nat.le_of_succ_le hk)
    obtain ⟨next, t', log', hplain', hlogged', hnext⟩ := hheld.step hkeeps hk t
    refine ⟨next, t', log', ?_, ?_, hnext⟩
    · rw [List.range_succ, List.foldlM_append, StateT.run_bind, hplain]
      simp [hplain']
    · rw [List.range_succ, List.foldlM_append, StateT.run_bind, hlogged]
      simp [hlogged']

theorem exists_run_jacobian (hkeeps : evaluate.Keeps x.length origin.length) (s : σ) :
    ∃ columns t log, (evaluate.jacobian x origin).run s = some (columns, t) ∧
      (evaluate.logged.jacobian x origin).run (s, []) = some (columns, (t, log)) ∧
      MeasuresFirst evaluate x origin x.length columns log := by
  let zeros : List α := List.replicate origin.length 0.0
  have hbegun : UpTo evaluate x origin 0 ⟨x, zeros, List.replicate x.length zeros⟩ [] :=
    ⟨⟨rfl, List.length_replicate, by simp⟩, rfl, List.length_replicate⟩
  obtain ⟨held, t, log, hplain, hlogged, hheld⟩ :=
    exists_upTo hkeeps s hbegun (Nat.le_refl x.length)
  refine ⟨held.columns, t, log, ?_, ?_, hheld.toMeasuresFirst⟩
  · rw [Evaluator.jacobian, StateT.run_bind, hplain]
    rfl
  · rw [Evaluator.jacobian, StateT.run_bind, hlogged]
    rfl

end Measuring

/-! ### The step -/

/-- The distance from one to the next number of binary64. -/
def machineEpsilon : Float := 2.220446049250313e-16

theorem probeStep_eq (v : Float) : probeStep v = sqrt machineEpsilon * larger (Scalar.abs v) 1.0 := by
  have hroot : (1.490116119384765625e-8 : Float) = sqrt machineEpsilon := by decide +kernel
  rw [probeStep, hroot]

theorem probeStep_pos (v : ℝ) : 0 < probeStep v := by
  have hlarger : (1 : ℝ) ≤ larger (Scalar.abs v) 1.0 := by
    rw [larger_eq_max]
    refine le_trans ?_ (le_max_right ..)
    norm_num
  have hroot : (0 : ℝ) < 1.490116119384765625e-8 := by norm_num
  exact mul_pos hroot (lt_of_lt_of_le one_pos hlarger)

/-! ### Affine problems -/

section Affine

variable {n m : Nat} {A : Matrix (Fin m) (Fin n) ℝ} {b : Fin m → ℝ} {p : LeastSquares ℝ}

theorem mulVec_update_sub (A : Matrix (Fin m) (Fin n) ℝ) (x : Fin n → ℝ) (j : Fin n) (v : ℝ)
    (i : Fin m) : A.mulVec (Function.update x j v) i - A.mulVec x i = A i j * (v - x j) := by
  have hsingle : Function.update x j v - x = Pi.single j (v - x j) := by
    funext k
    by_cases hk : k = j
    · subst hk
      simp
    · simp [hk]
  rw [← Pi.sub_apply, ← Matrix.mulVec_sub, hsingle, Matrix.mulVec_single]
  simp

theorem set_ofFn (x : Fin n → ℝ) (j : Fin n) (v : ℝ) :
    (List.ofFn x).set j v = List.ofFn (Function.update x j v) := by
  refine List.ext_getElem (by simp) ?_
  intro k _ _
  simp [List.getElem_set, Function.update_apply, Fin.ext_iff, eq_comm]

theorem exists_ofFn {l : List ℝ} (h : l.length = n) : ∃ y : Fin n → ℝ, l = List.ofFn y := by
  subst h
  exact ⟨l.get, (List.ofFn_get l).symm⟩

theorem quotients_affine (x : Fin n → ℝ) (j : Fin n) {step : ℝ} (hstep : 0 < step) :
    List.zipWith (fun moved before : ℝ => (moved - before) / step)
        (List.ofFn (A.mulVec (Function.update x j (x j + step)) + b))
        (List.ofFn (A.mulVec x + b)) =
      List.ofFn fun i => A i j := by
  refine List.ext_getElem (by simp) ?_
  intro i _ _
  simp only [List.getElem_zipWith, List.getElem_ofFn, Pi.add_apply]
  rw [add_sub_add_right_eq_sub, mulVec_update_sub, add_sub_cancel_left,
    mul_div_cancel_right₀ _ hstep.ne']

theorem jacobianColumns_affine
    (hp : ∀ y : Fin n → ℝ, p.residuals (List.ofFn y) = List.ofFn (A.mulVec y + b))
    (x : Fin n → ℝ) :
    p.jacobianColumns (List.ofFn x) (List.ofFn (A.mulVec x + b)) =
      List.ofFn fun j => List.ofFn fun i => A i j := by
  rw [LeastSquares.jacobianColumns_eq]
  refine List.ext_getElem (by simp [probes]) ?_
  intro j _ hj
  obtain ⟨k, rfl⟩ : ∃ k : Fin n, k.1 = j := ⟨⟨j, by simpa using hj⟩, rfl⟩
  have hstep : x k + probeStep (x k) - x k = probeStep (x k) := add_sub_cancel_left ..
  simp only [probes, Probe.column, List.getElem_map, List.getElem_zipIdx, List.getElem_ofFn,
    Nat.zero_add, Fin.eta, set_ofFn, hp, hstep]
  exact quotients_affine x k (probeStep_pos (x k))

theorem exists_run_jacobian_affine {evaluate : Evaluator ℝ σ}
    (hcomputes : evaluate.Computes n m p.residuals)
    (hp : ∀ y : Fin n → ℝ, p.residuals (List.ofFn y) = List.ofFn (A.mulVec y + b))
    (x : Fin n → ℝ) (s : σ) :
    ∃ t, (evaluate.jacobian (List.ofFn x) (List.ofFn (A.mulVec x + b))).run s =
      some (List.ofFn fun j => List.ofFn fun i => A i j, t) := by
  have hkeeps : evaluate.Keeps n m := by
    refine hcomputes.keeps fun l hl => ?_
    obtain ⟨y, rfl⟩ := exists_ofFn hl
    rw [hp, List.length_ofFn]
  have hx : (List.ofFn x).length = n := List.length_ofFn
  have horigin : (List.ofFn (A.mulVec x + b)).length = m := List.length_ofFn
  rw [← hx, ← horigin] at hkeeps hcomputes
  obtain ⟨columns, t, log, hrun, -, hmeasures⟩ := Measuring.exists_run_jacobian hkeeps s
  refine ⟨t, ?_⟩
  rw [hrun, hmeasures.eq_jacobianColumns hcomputes, jacobianColumns_affine hp]

end Affine

namespace Evaluator

/-- A loop over the columns asks for the residuals once for each variable, in their order, each time
at the point with that variable alone moved, whatever the problem answers and however it changes. A
column is the change of the residuals over the step that was really taken; so where the residuals
depend on the point alone the columns are those of `LeastSquares.jacobianColumns`, and in exact
arithmetic those of the matrix if the residuals are affine. -/
theorem jacobian_moves_one_at_a_time :
    (∀ (σ : Type) (evaluate : Evaluator Float σ) (x origin : List Float) (s : σ),
      evaluate.Keeps x.length origin.length → ∃ columns t log,
        (evaluate.jacobian x origin).run s = some (columns, t) ∧
        (evaluate.logged.jacobian x origin).run (s, []) = some (columns, (t, log)) ∧
        log.length = x.length ∧ columns.length = x.length ∧
        (∀ j v, x[j]? = some v →
          let h := sqrt machineEpsilon * larger (Scalar.abs v) 1.0
          ∃ residuals, log[j]? = some ⟨x.set j (v + h), residuals⟩ ∧
            columns[j]? = some (List.zipWith (fun moved before => (moved - before) / (v + h - v))
              residuals origin) ∧
            ∀ r, evaluate.Computes x.length origin.length r → residuals = r (x.set j (v + h))) ∧
        ∀ p : LeastSquares Float, evaluate.Computes x.length origin.length p.residuals →
          columns = p.jacobianColumns x origin) ∧
    ∀ (σ : Type) (evaluate : Evaluator ℝ σ) (n m : Nat) (p : LeastSquares ℝ)
      (A : Matrix (Fin m) (Fin n) ℝ) (b : Fin m → ℝ), evaluate.Computes n m p.residuals →
      (∀ y : Fin n → ℝ, p.residuals (List.ofFn y) = List.ofFn (A.mulVec y + b)) →
      ∀ (x : Fin n → ℝ) (s : σ),
        ∃ t, (evaluate.jacobian (List.ofFn x) (p.residuals (List.ofFn x))).run s =
          some (List.ofFn fun j => List.ofFn fun i => A i j, t) := by
  constructor
  · intro σ evaluate x origin s hkeeps
    obtain ⟨columns, t, log, hplain, hlogged, hmeasures⟩ :=
      Measuring.exists_run_jacobian hkeeps s
    refine ⟨columns, t, log, hplain, hlogged, hmeasures.evaluations, hmeasures.width, ?_, ?_⟩
    · intro j v hv h
      obtain ⟨⟨point, residuals⟩, column, he, hcolumn, hmeasured⟩ := hmeasures.exists_measures hv
      obtain ⟨hpoint, ⟨out, s', hout, hanswer⟩, hquotients⟩ := hmeasured
      rw [probeStep_eq] at hpoint hquotients
      obtain rfl : point = x.set j (v + h) := hpoint
      refine ⟨residuals, he, hquotients ▸ hcolumn, fun r hr => ?_⟩
      rw [← hr _ out s' (List.length_set ..) hout]
      exact hanswer.symm
    · exact fun p hp => hmeasures.eq_jacobianColumns hp
  · intro σ evaluate n m p A b hcomputes hp x s
    rw [hp]
    exact exists_run_jacobian_affine hcomputes hp x s

/-- A parabola in the first variable and a line in the second one. -/
def parabola : LeastSquares Float where
  variableCount := 2
  residualCount := 2
  residuals x := [x.getD 0 0.0 * x.getD 0 0.0 - 4.0, 3.0 * x.getD 1 0.0]
  aggregate := norm

/-- The same, written entry by entry. The state counts evaluations. -/
def counted : Evaluator Float Nat := fun x out => do
  modify (· + 1)
  return (out.set 0 (x.getD 0 0.0 * x.getD 0 0.0 - 4.0)).set 1 (3.0 * x.getD 1 0.0)

noncomputable def crossed : LeastSquares ℝ where
  variableCount := 2
  residualCount := 2
  residuals x := [x.getD 1 0 + 1, x.getD 0 0 - x.getD 1 0]
  aggregate := norm

theorem jacobian_moves_one_at_a_time_parabola :
    counted.Keeps 2 2 ∧ counted.Computes 2 2 parabola.residuals ∧
    (∃ t log, (counted.logged.jacobian [3.0, -1.0] [5.0, -3.0]).run (0, []) =
        some ([[6.00000003973643, 0.0], [0.0, 3.0]], (t, log)) ∧ log.length = 2 ∧
      log[1]? = some ⟨[3.0, -0.9999999850988388], parabola.residuals [3.0, -0.9999999850988388]⟩) ∧
    ∃ t : Nat, (jacobian (fun x _ => do modify (· + 1); return crossed.residuals x)
      (List.ofFn ![4, 5]) (crossed.residuals (List.ofFn ![4, 5]))).run 0 =
        some ([[0, 1], [1, -1]], t) := by
  have hcomputes : counted.Computes 2 2 parabola.residuals := by
    intro x out s _ hout
    obtain ⟨first, second, rfl⟩ := List.length_eq_two.mp hout
    rfl
  have hkeeps : counted.Keeps 2 2 := hcomputes.keeps fun _ _ => rfl
  refine ⟨hkeeps, hcomputes, ?_, ?_⟩
  · obtain ⟨columns, t, log, -, hlogged, hcount, -, heach, hcolumns⟩ :=
      jacobian_moves_one_at_a_time.1 Nat counted [3.0, -1.0] [5.0, -3.0] 0 hkeeps
    have hmeasured : parabola.jacobianColumns [3.0, -1.0] [5.0, -3.0] =
        [[6.00000003973643, 0.0], [0.0, 3.0]] := by
      decide +kernel
    obtain ⟨residuals, hsecond, -, hanswer⟩ := heach 1 (-1.0) rfl
    have hpoint : [3.0, -1.0].set 1 (-1.0 + sqrt machineEpsilon * larger (Scalar.abs (-1.0)) 1.0) =
        ([3.0, -0.9999999850988388] : List Float) := by
      decide +kernel
    rw [hanswer _ hcomputes, hpoint] at hsecond
    rw [hlogged, hcolumns parabola hcomputes, hmeasured]
    exact ⟨t, log, rfl, hcount, hsecond⟩
  · have haffine (y : Fin 2 → ℝ) : crossed.residuals (List.ofFn y) =
        List.ofFn (Matrix.mulVec !![0, 1; 1, -1] y + ![1, 0]) := by
      simp [crossed, dotProduct, List.ofFn_succ, sub_eq_add_neg]
    obtain ⟨t, hrun⟩ := jacobian_moves_one_at_a_time.2 Nat
      (fun x _ => do modify (· + 1); return crossed.residuals x) 2 2 crossed !![0, 1; 1, -1] ![1, 0]
      (fun _ _ _ _ _ => rfl) haffine ![4, 5] 0
    refine ⟨t, hrun.trans ?_⟩
    simp [List.ofFn_succ]

end Evaluator

end PlaneSketch
