import PlaneSketch.Proofs.Classification
import PlaneSketch.Solve.Workspace

/-!
# Evaluating in place forgets

A workspace (`SketchProblem`) that has been moved, filled and differentiated answers as a new one
would. Each evaluation writes every variable into the drawing, fills the buffer from its start and
writes every entry of the result, so that what it answers depends on the values it is asked at and
on nothing that happened before.
-/

namespace PlaneSketch

variable {α : Type}

/-! ### Writing over a vector -/

theorem overwrite?_eq_some {values out : List α} {place : Nat}
    (h : place + values.length ≤ out.length) :
    overwrite? out place values =
      some (out.take place ++ values ++ out.drop (place + values.length)) := by
  induction values generalizing out place with
  | nil => simp [overwrite?]
  | cons v rest ih =>
    rw [List.length_cons] at h
    have hplace : place < out.length := by omega
    have hrest : place + 1 + rest.length ≤ (out.set place v).length := by
      rw [List.length_set]
      omega
    have htake : (out.set place v).take (place + 1) = out.take place ++ [v] := by
      rw [List.take_add_one, List.take_set_of_le (Nat.le_refl _), List.getElem?_set_self hplace]
      rfl
    have hdrop : (out.set place v).drop (place + 1 + rest.length) =
        out.drop (place + (rest.length + 1)) := by
      rw [List.drop_set_of_lt (by omega)]
      congr 1
      omega
    have hwrite : writeAt? out place v = some (out.set place v) := if_pos hplace
    rw [overwrite?, hwrite, Option.bind_eq_bind, Option.bind_some, ih hrest, htake, hdrop,
      List.length_cons, List.append_assoc _ [v], List.singleton_append]

theorem mapM_eq_some_of_forall {β γ : Type} {f : β → Option γ} {g : β → γ} {l : List β}
    (h : ∀ b ∈ l, f b = some (g b)) : l.mapM f = some (l.map g) := by
  induction l with
  | nil => rfl
  | cons b rest ih =>
    obtain ⟨hb, hrest⟩ := List.forall_mem_cons.mp h
    rw [List.mapM_cons, hb, ih hrest]
    rfl

variable [Scalar α]

open Scalar

/-! ### The buffer -/

theorem Constraint.collect_eq (s : Sketch α) (buffer : List α) (c : Constraint α) :
    c.collect s buffer = buffer ++ c.weightedComponents s := by
  unfold collect weightedComponents
  cases s.components c.requirement <;> simp only [List.take_left', List.drop_left']

theorem foldl_collect (s : Sketch α) (constraints : List (Constraint α)) (buffer : List α) :
    constraints.foldl (Constraint.collect s) buffer =
      buffer ++ constraints.flatMap (·.weightedComponents s) := by
  induction constraints generalizing buffer with
  | nil => simp
  | cons c rest ih =>
    rw [List.foldl_cons, ih, Constraint.collect_eq, List.flatMap_cons, List.append_assoc]

namespace Objective

variable {o : Objective α} {x : List α}

theorem length_pull (hanchor : o.anchor.length = o.slots.length) (hx : x.length = o.slots.length) :
    (o.pull x).length = o.slots.length := by
  rw [pull, List.length_zipWith, hx, hanchor, Nat.min_self]

theorem pulls?_eq_some (hanchor : o.anchor.length = o.slots.length)
    (hx : x.length = o.slots.length) : o.pulls? x = some (o.pull x) := by
  have hat : ∀ i ∈ List.range o.slots.length,
      (do return o.damping * ((← x[i]?) - (← o.anchor[i]?))) = some ((o.pull x).getD i 0.0) := by
    intro i hi
    have hlt : i < o.slots.length := List.mem_range.mp hi
    have hvalue : x[i]? = some x[i] := List.getElem?_eq_getElem (by omega)
    have hheld : o.anchor[i]? = some o.anchor[i] := List.getElem?_eq_getElem (by omega)
    have hpull : (o.pull x)[i]? = some (o.damping * (x[i] - o.anchor[i])) := by
      rw [pull, List.getElem?_zipWith, hvalue, hheld]
    rw [hvalue, hheld, List.getD_eq_getElem?_getD, hpull]
    rfl
  rw [pulls?, mapM_eq_some_of_forall hat]
  refine congrArg some (List.ext_getElem ?_ ?_)
  · rw [List.length_map, List.length_range, length_pull hanchor hx]
  · intro i _ hi
    rw [List.getElem_map, List.getElem_range, List.getD_eq_getElem?_getD,
      List.getElem?_eq_getElem hi, Option.getD_some]

theorem length_residuals (hanchor : o.anchor.length = o.slots.length)
    (hx : x.length = o.slots.length) : (o.residuals x).length = o.problem.residualCount := by
  rw [residuals, List.length_append, length_components, length_pull hanchor hx]
  rfl

end Objective

/-! ### The rows of the residuals -/

/-- The weighted components of a constraint, behind those of the constraints before it. -/
theorem getElem?_flatMap_weightedComponents (s : Sketch α) {constraints : List (Constraint α)}
    {k : Nat} {c : Constraint α} (hc : constraints[k]? = some c) {j : Nat}
    (hj : j < c.requirement.componentCount) :
    (constraints.flatMap (·.weightedComponents s))[((constraints.take k).map
        (·.requirement.componentCount)).foldr (· + ·) 0 + j]? = (c.weightedComponents s)[j]? := by
  induction constraints generalizing k with
  | nil => cases hc
  | cons d rest ih =>
    rw [List.flatMap_cons]
    cases k with
    | zero =>
      obtain rfl : d = c := Option.some.inj hc
      rw [← d.length_weightedComponents s] at hj
      rw [List.take_zero, List.map_nil, List.foldr_nil, Nat.zero_add, List.getElem?_append_left hj]
    | succ k =>
      have hd := d.length_weightedComponents s
      rw [List.take_succ_cons, List.map_cons, List.foldr_cons,
        List.getElem?_append_right (by omega), hd, Nat.add_assoc, Nat.add_sub_cancel_left]
      exact ih hc

namespace Objective

/-- The row at which the components of a constraint start. -/
def firstRow (o : Objective α) (k : Nat) : Nat :=
  ((o.constraints.take k).map (·.requirement.componentCount)).foldr (· + ·) 0

/-- The vector has the rows of the residuals at `x`: for each constraint in turn as many as its
requirement has components, each times the weight, and then one pull for each variable. -/
structure HasRows (o : Objective α) (x r : List α) : Prop where
  length : r.length = o.componentCount + o.slots.length
  resolved : ∀ (k : Nat) (c : Constraint α) (residuals : List α), o.constraints[k]? = some c →
    (o.placed x).components c.requirement = .ok residuals →
    residuals.length = c.requirement.componentCount ∧
      ∀ (j : Nat) (v : α), residuals[j]? = some v → r[o.firstRow k + j]? = some (v * c.weight)
  unresolved : ∀ (k : Nat) (c : Constraint α) (missing : EntityRef), o.constraints[k]? = some c →
    (o.placed x).components c.requirement = .error missing →
    ∀ j < c.requirement.componentCount, r[o.firstRow k + j]? = some (unresolvedError * c.weight)
  pulled : ∀ (i : Nat) (v a : α), x[i]? = some v → o.anchor[i]? = some a →
    r[o.componentCount + i]? = some (o.damping * (v - a))

variable {o : Objective α} {x : List α}

theorem getElem?_residuals {k : Nat} {c : Constraint α} (hc : o.constraints[k]? = some c) {j : Nat}
    (hj : j < c.requirement.componentCount) :
    (o.residuals x)[o.firstRow k + j]? = (c.weightedComponents (o.placed x))[j]? := by
  have hrow : (o.components x)[o.firstRow k + j]? = (c.weightedComponents (o.placed x))[j]? :=
    getElem?_flatMap_weightedComponents (o.placed x) hc hj
  have hthere : j < (c.weightedComponents (o.placed x)).length := by
    rwa [c.length_weightedComponents]
  have hlt : o.firstRow k + j < (o.components x).length :=
    (List.getElem?_eq_some_iff.mp (hrow.trans (List.getElem?_eq_getElem hthere))).1
  rw [residuals, List.getElem?_append_left hlt, hrow]

theorem hasRows_residuals (hanchor : o.anchor.length = o.slots.length)
    (hx : x.length = o.slots.length) : o.HasRows x (o.residuals x) where
  length := length_residuals hanchor hx
  resolved k c residuals hc hok := by
    have hlength := Sketch.length_components hok
    refine ⟨hlength, fun j v hv => ?_⟩
    have hj : j < residuals.length := (List.getElem?_eq_some_iff.mp hv).1
    rw [getElem?_residuals hc (hlength ▸ hj), Constraint.weightedComponents, hok]
    rw [List.getElem?_map, hv, Option.map_some]
  unresolved k c missing hc herror j hj := by
    rw [getElem?_residuals hc hj, Constraint.weightedComponents, herror]
    rw [List.getElem?_map, List.getElem?_replicate, if_pos hj, Option.map_some]
  pulled i v a hv ha := by
    have hpull : (o.pull x)[i]? = some (o.damping * (v - a)) := by
      rw [pull, List.getElem?_zipWith, hv, ha]
    rw [Objective.residuals, List.getElem?_append_right (by rw [length_components]; omega),
      length_components, Nat.add_sub_cancel_left, hpull]

end Objective

/-! ### One request -/

/-- The probe of the variable with the value and the place. -/
def probeAt (x : List α) (p : α × Nat) : Probe α :=
  ⟨x.set p.2 (p.1 + probeStep p.1), p.1 + probeStep p.1 - p.1⟩

namespace Workspace

/-- The workspace differs from the objective by values of the variables alone: moved to the same
place, both are the same. -/
def IsAbout (w : Workspace α) (o : Objective α) : Prop :=
  ∀ x, x.length = o.slots.length → w.objective.move x = o.move x

variable {w : Workspace α} {o : Objective α} {x : List α}

omit [Scalar α] in
theorem isAbout_self (o : Objective α) (buffer : List α) : (⟨o, buffer⟩ : Workspace α).IsAbout o :=
  fun _ _ => rfl

omit [Scalar α] in
theorem IsAbout.move (h : w.IsAbout o) (visited buffer : List α) :
    (⟨w.objective.move visited, buffer⟩ : Workspace α).IsAbout o := by
  intro x hx
  have hslots := congrArg Objective.slots (h x hx)
  have hlength : x.length = w.objective.slots.length := hx.trans (congrArg List.length hslots.symm)
  have hforget : (w.objective.move visited).move x = w.objective.move x := by
    simp only [Objective.move, Objective.placed, Sketch.withValuesAt_withValuesAt _ _ hlength]
  exact hforget.trans (h x hx)

omit [Scalar α] in
theorem isAbout_move (o : Objective α) (visited buffer : List α) :
    (⟨o.move visited, buffer⟩ : Workspace α).IsAbout o :=
  (isAbout_self o buffer).move visited buffer

theorem run_evaluate_eq (x out : List α) (w : Workspace α) :
    (evaluate x out).run w = (do
      let moved := w.objective.move x
      let buffer := moved.constraints.foldl (Constraint.collect moved.drawing) []
      let out ← overwrite? out 0 buffer
      let out ← overwrite? out moved.componentCount (← moved.pulls? x)
      return (out, ⟨moved, buffer⟩)) := by
  simp only [evaluate, apply, fill, StateT.run_bind, StateT.run_modify, StateT.run_get,
    StateT.run_monadLift, monadLift_self, pure_bind, bind_assoc]

/-- An evaluation forgets where the drawing was and what the buffer and the vector held. -/
theorem run_evaluate (h : w.IsAbout o) (hanchor : o.anchor.length = o.slots.length)
    (hx : x.length = o.slots.length) {out : List α} (hout : out.length = o.problem.residualCount) :
    (evaluate x out).run w = some (o.residuals x, ⟨o.move x, o.components x⟩) := by
  have hfill : (o.move x).constraints.foldl (Constraint.collect (o.move x).drawing) [] =
      o.components x := foldl_collect ..
  have hlength : out.length = o.componentCount + o.slots.length := hout
  have hcomponents := o.length_components x
  have hpull := Objective.length_pull hanchor hx
  have hwritten : overwrite? out 0 (o.components x) =
      some (o.components x ++ out.drop o.componentCount) := by
    rw [overwrite?_eq_some (by omega), hcomponents]
    simp
  have hpulled : overwrite? (o.components x ++ out.drop o.componentCount) o.componentCount
      (o.pull x) = some (o.residuals x) := by
    rw [overwrite?_eq_some (by simp; omega), List.take_left' hcomponents, hpull,
      List.drop_eq_nil_of_le (by simp; omega), List.append_nil]
    rfl
  have hpulls : (o.move x).pulls? x = some (o.pull x) := Objective.pulls?_eq_some hanchor hx
  have hcount : (o.move x).componentCount = o.componentCount := rfl
  simp only [run_evaluate_eq, h x hx, hfill, hwritten, hpulls, hcount, hpulled,
    Option.bind_eq_bind, Option.bind_some, Option.pure_def]

theorem run_columns_cons (x origin point out : List α) (j : Nat) (rest : List Nat)
    (w : Workspace α) :
    (columns x origin (j :: rest) point out).run w = (do
      let v ← x[j]?
      let probe : Probe α := ⟨← writeAt? point j (v + probeStep v), v + probeStep v - v⟩
      let (out, w) ← (evaluate probe.point out).run w
      let back ← writeAt? probe.point j v
      let (others, w) ← (columns x origin rest back out).run w
      return (probe.column out origin :: others, w)) := by
  simp only [columns, StateT.run_bind, StateT.run_monadLift, StateT.run_pure, monadLift_self,
    pure_bind, bind_assoc]

/-- The point is back where it was after each column, so that each is measured from there. -/
theorem run_columns (hanchor : o.anchor.length = o.slots.length) (hx : x.length = o.slots.length)
    (origin : List α) (placed : List (α × Nat)) (hplaced : ∀ p ∈ placed, x[p.2]? = some p.1)
    (h : w.IsAbout o) {out : List α} (hout : out.length = o.problem.residualCount) :
    ∃ w', (columns x origin (placed.map Prod.snd) x out).run w =
        some ((placed.map (probeAt x)).map fun p => p.column (o.residuals p.point) origin, w') ∧
      w'.IsAbout o := by
  induction placed generalizing w out with
  | nil => exact ⟨w, rfl, h⟩
  | cons p rest ih =>
    obtain ⟨v, j⟩ := p
    obtain ⟨hvalue, hrest⟩ := List.forall_mem_cons.mp hplaced
    obtain ⟨hj, hv⟩ : ∃ hj : j < x.length, x[j] = v := List.getElem?_eq_some_iff.mp hvalue
    have hpoint : (probeAt x (v, j)).point.length = o.slots.length := (List.length_set ..).trans hx
    have hthere : writeAt? x j (v + probeStep v) = some (probeAt x (v, j)).point := if_pos hj
    have hback : writeAt? (probeAt x (v, j)).point j v = some x := by
      rw [writeAt?, if_pos (by omega), probeAt, List.set_set, ← hv, List.set_getElem_self]
    have hevaluated := run_evaluate h hanchor hpoint hout
    obtain ⟨w', hcolumns, hw'⟩ := ih hrest
      (isAbout_move o (probeAt x (v, j)).point (o.components (probeAt x (v, j)).point))
      (Objective.length_residuals hanchor hpoint)
    refine ⟨w', ?_, hw'⟩
    rw [List.map_cons, run_columns_cons, hvalue]
    simp only [Option.bind_eq_bind, Option.bind_some, hthere, hevaluated, hback, hcolumns,
      Option.pure_def, List.map_cons]
    rfl

theorem IsAbout.residualCount (h : w.IsAbout o) (hx : x.length = o.slots.length) :
    w.objective.problem.residualCount = o.problem.residualCount :=
  congrArg (fun o => o.problem.residualCount) (h x hx)

theorem run_jacobian (h : w.IsAbout o) (hanchor : o.anchor.length = o.slots.length)
    (hx : x.length = o.slots.length) {origin : List α}
    (horigin : origin.length = o.problem.residualCount) :
    ∃ w', (jacobian x origin).run w = some (o.problem.jacobianColumns x origin, w') ∧
      w'.IsAbout o := by
  have hzeros : (List.replicate origin.length (0.0 : α)).length = o.problem.residualCount :=
    List.length_replicate.trans horigin
  obtain ⟨w', hcolumns, hw'⟩ := run_columns hanchor hx origin x.zipIdx
    (fun p hp => List.mem_zipIdx_iff_getElem?.mp hp) h hzeros
  have hplaces : x.zipIdx.map Prod.snd = List.range x.length := by
    rw [List.zipIdx_map_snd, List.range_eq_range']
  have hjacobian : (x.zipIdx.map (probeAt x)).map
      (fun p => p.column (o.residuals p.point) origin) = o.problem.jacobianColumns x origin :=
    (LeastSquares.jacobianColumns_eq o.problem x origin).symm
  rw [hplaces, hjacobian] at hcolumns
  exact ⟨w', hcolumns, hw'⟩

/-- The drawing ends where it is asked about, not where the last column was measured. -/
theorem run_differentiate (h : w.IsAbout o) (hanchor : o.anchor.length = o.slots.length)
    (hx : x.length = o.slots.length) :
    ∃ left, (differentiate x).run w =
      some ((o.residuals x, o.problem.jacobianColumns x (o.residuals x)), ⟨o.move x, left⟩) := by
  have hzeros : (List.replicate o.problem.residualCount (0.0 : α)).length =
      o.problem.residualCount := List.length_replicate
  have hevaluated := run_evaluate h hanchor hx hzeros
  obtain ⟨w', hjacobian, hw'⟩ := run_jacobian (isAbout_move o x (o.components x)) hanchor hx
    (Objective.length_residuals hanchor hx)
  refine ⟨w'.buffer, ?_⟩
  simp only [differentiate, apply, StateT.run_bind, StateT.run_get, StateT.run_modify,
    StateT.run_pure, h.residualCount hx, hevaluated, hjacobian, hw' x hx, Option.bind_eq_bind,
    Option.bind_some, Option.pure_def]

theorem run_constraintColumns (h : w.IsAbout o) (hanchor : o.anchor.length = o.slots.length)
    (hx : x.length = o.slots.length) :
    ∃ left, (constraintColumns x).run w = some (o.constraintColumns x, ⟨o.move x, left⟩) := by
  obtain ⟨left, hleft⟩ := run_differentiate h hanchor hx
  refine ⟨left, ?_⟩
  simp only [constraintColumns, StateT.run_bind, StateT.run_get, StateT.run_pure, pure_bind, hleft,
    Option.bind_eq_bind, Option.bind_some]
  rfl

theorem run_constraintGradient (h : w.IsAbout o) (hanchor : o.anchor.length = o.slots.length)
    (hx : x.length = o.slots.length) :
    ∃ left, (constraintGradient x).run w = some (o.constraintGradient x, ⟨o.move x, left⟩) := by
  obtain ⟨left, hleft⟩ := run_differentiate h hanchor hx
  refine ⟨left, ?_⟩
  simp only [constraintGradient, StateT.run_bind, StateT.run_get, StateT.run_pure, pure_bind, hleft,
    Option.bind_eq_bind, Option.bind_some]
  rfl

/-! ### Many requests -/

/-- The vectors of the request have the lengths that the objective has. -/
def Request.Fits (o : Objective α) : Request α → Prop
  | .apply _ => True
  | .evaluate x rows | .jacobian x rows =>
    x.length = o.slots.length ∧ rows.length = o.problem.residualCount
  | .constraintColumns x | .constraintGradient x => x.length = o.slots.length

theorem run_serve (h : w.IsAbout o) (hanchor : o.anchor.length = o.slots.length) {r : Request α}
    (hr : r.Fits o) : ∃ w', (serve r).run w = some ((), w') ∧ w'.IsAbout o := by
  cases r with
  | apply x => exact ⟨_, rfl, h.move x w.buffer⟩
  | evaluate x out =>
    refine ⟨_, ?_, isAbout_move o x (o.components x)⟩
    simp only [serve, StateT.run_bind, run_evaluate h hanchor hr.1 hr.2, Option.bind_eq_bind,
      Option.bind_some, StateT.run_pure, Option.pure_def]
  | jacobian x origin =>
    obtain ⟨w', hjacobian, hw'⟩ := run_jacobian h hanchor hr.1 hr.2
    refine ⟨w', ?_, hw'⟩
    simp only [serve, StateT.run_bind, hjacobian, Option.bind_eq_bind, Option.bind_some,
      StateT.run_pure, Option.pure_def]
  | constraintColumns x =>
    obtain ⟨left, hleft⟩ := run_constraintColumns h hanchor hr
    refine ⟨_, ?_, isAbout_move o x left⟩
    simp only [serve, StateT.run_bind, hleft, Option.bind_eq_bind, Option.bind_some,
      StateT.run_pure, Option.pure_def]
  | constraintGradient x =>
    obtain ⟨left, hleft⟩ := run_constraintGradient h hanchor hr
    refine ⟨_, ?_, isAbout_move o x left⟩
    simp only [serve, StateT.run_bind, hleft, Option.bind_eq_bind, Option.bind_some,
      StateT.run_pure, Option.pure_def]

theorem run_serve_all (h : w.IsAbout o) (hanchor : o.anchor.length = o.slots.length)
    {history : List (Request α)} (hhistory : ∀ r ∈ history, r.Fits o) :
    ∃ w', (history.forM serve).run w = some ((), w') ∧ w'.IsAbout o := by
  induction history generalizing w with
  | nil => exact ⟨w, rfl, h⟩
  | cons r rest ih =>
    obtain ⟨hr, hrest⟩ := List.forall_mem_cons.mp hhistory
    obtain ⟨w', hserved, hw'⟩ := run_serve h hanchor hr
    obtain ⟨w'', hlater, hw''⟩ := ih hw' hrest
    refine ⟨w'', ?_, hw''⟩
    show (serve r >>= fun _ => rest.forM serve).run w = _
    rw [StateT.run_bind, hserved, Option.bind_eq_bind, Option.bind_some, hlater]

/-- After any requests whose vectors have the right lengths, whatever the buffer held at first, an
evaluation gives the residuals at `x`, row by row as they are laid out, whatever the vector held
that it writes over; and the Jacobian, the columns and the gradient of the constraints are those at
`x` too. The evaluation and the last two leave the drawing at `x`. -/
theorem answers_after (o : Objective α) (hanchor : o.anchor.length = o.slots.length)
    (buffer : List α) {history : List (Request α)} (hhistory : ∀ r ∈ history, r.Fits o) :
    ∃ w, (history.forM serve).run ⟨o, buffer⟩ = some ((), w) ∧
      ∀ x, x.length = o.slots.length →
        (∀ out, out.length = o.problem.residualCount →
          ∃ r left, (evaluate x out).run w = some (r, ⟨o.move x, left⟩) ∧
            r = o.residuals x ∧ o.HasRows x r) ∧
        (∀ origin, origin.length = o.problem.residualCount →
          ∃ w', (jacobian x origin).run w = some (o.problem.jacobianColumns x origin, w')) ∧
        (∃ left, (constraintColumns x).run w = some (o.constraintColumns x, ⟨o.move x, left⟩)) ∧
        ∃ left, (constraintGradient x).run w = some (o.constraintGradient x, ⟨o.move x, left⟩) := by
  obtain ⟨w, hserved, hw⟩ := run_serve_all (isAbout_self o buffer) hanchor hhistory
  refine ⟨w, hserved, fun x hx => ⟨fun out hout => ?_, fun origin horigin => ?_, ?_, ?_⟩⟩
  · exact ⟨_, _, run_evaluate hw hanchor hx hout, rfl, Objective.hasRows_residuals hanchor hx⟩
  · obtain ⟨w', hjacobian, -⟩ := run_jacobian hw hanchor hx horigin
    exact ⟨w', hjacobian⟩
  · exact run_constraintColumns hw hanchor hx
  · exact run_constraintGradient hw hanchor hx

/-- A horizontal line between two points, one of which halves a line that is not there. -/
def halfLost : Objective Float :=
  let s := ((Sketch.empty "").addPoint ⟨0.0, 0.0⟩).2
  let s := ((s.addPoint ⟨3.0, 4.0⟩).2.addLine ⟨0⟩ ⟨1⟩).2
  let s := ((s.addConstraint (.horizontal ⟨2⟩)).2.addConstraint (.midpoint ⟨1⟩ ⟨9⟩)).2
  .of s s.slots s.active 0.5

def halfLostHistory : List (Request Float) :=
  [.evaluate [9.0, 9.0, 9.0, 9.0] (List.replicate 7 8.0), .apply [1.0],
    .jacobian [0.0, 1.0, 2.0, 3.0] (List.replicate 7 0.0)]

theorem answers_after_halfLost :
    (∀ r ∈ halfLostHistory, r.Fits halfLost) ∧
      ∃ w, (halfLostHistory.forM serve).run ⟨halfLost, [7.0]⟩ = some ((), w) ∧
        ∃ r left, (evaluate [1.0, 0.0, 3.0, 4.0] (List.replicate 7 6.0)).run w =
            some (r, ⟨halfLost.move [1.0, 0.0, 3.0, 4.0], left⟩) ∧
          halfLost.HasRows [1.0, 0.0, 3.0, 4.0] r := by
  have hslots : halfLost.slots.length = 4 := by decide +kernel
  have hrows : halfLost.problem.residualCount = 7 := by decide +kernel
  have hhistory : ∀ r ∈ halfLostHistory, r.Fits halfLost := by
    simp [halfLostHistory, Request.Fits, hslots, hrows]
  obtain ⟨w, hserved, hafter⟩ := answers_after halfLost (List.length_map ..) [7.0] hhistory
  obtain ⟨r, left, hevaluated, -, hr⟩ := (hafter [1.0, 0.0, 3.0, 4.0] hslots.symm).1
    (List.replicate 7 6.0) hrows.symm
  exact ⟨hhistory, w, hserved, r, left, hevaluated, hr⟩

end Workspace

end PlaneSketch
