import Mathlib.Data.List.Count
import PlaneSketch.Diagnosis.Conflict.Axes

/-!
# Spreading axes

What a round over the links does (`axis_conflicts`): a link hands an axis on at most once, from a
line that has one to a line that has none. So everything that spreading keeps is what one handing on
keeps, and the rounds settle: there are at most as many that change something as there are links.
-/

namespace PlaneSketch

/-! ### Repeating until nothing changes -/

section Repeating

variable {β : Type} {f : β → β}

/-- Applying `f` again and again, for as long as it changes something, ends with the second
value. -/
inductive Settles (f : β → β) : β → β → Prop
  | done {b : β} (fixed : f b = b) : Settles f b b
  | again {a b : β} (changes : f a ≠ a) (rest : Settles f (f a) b) : Settles f a b

theorem repeat_succ' (rounds : Nat) (a : β) :
    Nat.repeat f (rounds + 1) a = Nat.repeat f rounds (f a) := by
  induction rounds with
  | zero => rfl
  | succ rounds ih => exact congrArg f ih

theorem repeat_of_fixed {a : β} (h : f a = a) (rounds : Nat) : Nat.repeat f rounds a = a := by
  induction rounds with
  | zero => rfl
  | succ rounds ih => exact (congrArg f ih).trans h

/-- Where every change takes something away of which there is no more than there are rounds, the
rounds settle. -/
theorem settles_repeat (left : β → Nat) (hless : ∀ a, f a ≠ a → left (f a) < left a) {a : β}
    {rounds : Nat} (h : left a ≤ rounds) : Settles f a (Nat.repeat f rounds a) := by
  induction rounds generalizing a with
  | zero =>
    refine .done (by_contra fun hchanges => ?_)
    have := hless a hchanges
    omega
  | succ rounds ih =>
    by_cases hfixed : f a = a
    · rw [repeat_of_fixed hfixed]
      exact .done hfixed
    · rw [repeat_succ']
      have := hless a hfixed
      exact .again hfixed (ih (by omega))

theorem Settles.fixed {a b : β} (h : Settles f a b) : f b = b := by
  induction h with
  | done hfixed => exact hfixed
  | again _ _ ih => exact ih

end Repeating

/-- Of a stronger property there are fewer, if something has the weaker one alone. -/
theorem countP_lt_of_imp {β : Type} {l : List β} {p q : β → Bool}
    (himp : ∀ b, p b = true → q b = true) {b : β} (hb : b ∈ l) (hp : p b = false)
    (hq : q b = true) : l.countP p < l.countP q := by
  have hboth : (fun b => p b && q b) = p := by
    funext b
    rw [Bool.and_eq_left_iff_imp]
    exact himp b
  rw [← hboth, ← List.countP_filter, List.countP_eq_length_filter (p := q),
    List.countP_lt_length_iff]
  exact ⟨b, List.mem_filter.mpr ⟨hb, hq⟩, hp⟩

namespace Conflict

variable {α : Type} {links : List (AxisLink α)} {axes : Axes} {link : AxisLink α}
  {known line : LineId} {source handed oriented : Oriented}

/-! ### Look-up -/

theorem lookup_append_of_eq_some (more : Axes) (h : axes.lookup line = some oriented) :
    (axes ++ more).lookup line = some oriented := by
  rw [List.lookup_append, h]
  rfl

theorem lookup_append_self (h : axes.lookup line = none) (oriented : Oriented) :
    (axes ++ [(line, oriented)]).lookup line = some oriented := by
  rw [List.lookup_append, h, List.lookup_cons_self]
  rfl

theorem lookup_append_cases {other : LineId}
    (h : (axes ++ [(line, handed)]).lookup other = some oriented) :
    axes.lookup other = some oriented ∨ other = line ∧ oriented = handed := by
  rw [List.lookup_append, Option.or_eq_some_iff] at h
  rcases h with hold | ⟨-, hnew⟩
  · exact Or.inl hold
  · rw [List.lookup_cons] at hnew
    split at hnew
    next hsame => exact Or.inr ⟨eq_of_beq hsame, (Option.some.inj hnew).symm⟩
    next => cases hnew

/-! ### Handing on -/

/-- The link hands an axis on, from a line that has one to a line that has none. -/
structure HandsOn (axes : Axes) (link : AxisLink α) (known line : LineId)
    (source handed : Oriented) : Prop where
  ends : known = link.first ∧ line = link.second ∨ known = link.second ∧ line = link.first
  lookup_known : axes.lookup known = some source
  lookup_line : axes.lookup line = none
  axis : link.relation = .same ∧ handed.axis = source.axis ∨
    link.relation = .turned ∧ handed.axis = source.axis.other
  because : handed.because = insertAscending ConstraintId.lt link.id source.because

/-- The link has nothing to hand on: it is an angle, or neither or both of its lines have an
axis. -/
def IsSpent (axes : Axes) (link : AxisLink α) : Prop :=
  (∃ degrees, link.relation = .angle degrees) ∨
    ((axes.lookup link.first).isSome ↔ (axes.lookup link.second).isSome)

theorem handOn_cases (axes : Axes) (link : AxisLink α) (turns : Bool)
    (hrelation : link.relation = if turns then .turned else .same) :
    (handOn axes link turns = axes ∧ IsSpent axes link) ∨
    ∃ known line source handed, HandsOn axes link known line source handed ∧
      handOn axes link turns = axes ++ [(line, handed)] := by
  have haxis (source : Oriented) :
      link.relation = .same ∧ (if turns then source.axis.other else source.axis) = source.axis ∨
        link.relation = .turned ∧
          (if turns then source.axis.other else source.axis) = source.axis.other := by
    cases turns with
    | false => exact Or.inl ⟨hrelation, rfl⟩
    | true => exact Or.inr ⟨hrelation, rfl⟩
  unfold handOn
  dsimp only
  split
  next source hsource hnone =>
    exact Or.inr ⟨_, _, source, _, ⟨Or.inl ⟨rfl, rfl⟩, hsource, hnone, haxis source, rfl⟩, rfl⟩
  next source hnone hsource =>
    exact Or.inr ⟨_, _, source, _, ⟨Or.inr ⟨rfl, rfl⟩, hsource, hnone, haxis source, rfl⟩, rfl⟩
  next hforth hback =>
    refine Or.inl ⟨rfl, Or.inr ?_⟩
    cases hfirst : axes.lookup link.first with
    | none =>
      cases hsecond : axes.lookup link.second with
      | none => rfl
      | some source => exact (hback source hfirst hsecond).elim
    | some source =>
      cases hsecond : axes.lookup link.second with
      | none => exact (hforth source hfirst hsecond).elim
      | some other => exact iff_of_true rfl rfl

theorem follow_cases (axes : Axes) (link : AxisLink α) :
    (follow axes link = axes ∧ IsSpent axes link) ∨
    ∃ known line source handed, HandsOn axes link known line source handed ∧
      follow axes link = axes ++ [(line, handed)] := by
  unfold follow
  split
  next hsame => exact handOn_cases axes link false hsame
  next hturned => exact handOn_cases axes link true hturned
  next degrees hangle => exact Or.inl ⟨rfl, Or.inl ⟨degrees, hangle⟩⟩

/-- What handing on keeps is kept by all rounds. -/
theorem spreadAxes_induction {motive : Axes → Prop}
    (step : ∀ axes link known line source handed, motive axes → link ∈ links →
      HandsOn axes link known line source handed → motive (axes ++ [(line, handed)]))
    (h : motive axes) : motive (spreadAxes links axes) := by
  have hround (axes : Axes) (haxes : motive axes) : motive (links.foldl follow axes) := by
    refine List.foldlRecOn (motive := motive) _ _ haxes ?_
    intro axes haxes link hlink
    rcases follow_cases axes link with ⟨hsame, -⟩ | ⟨_, _, _, _, hands, hmore⟩
    · rwa [hsame]
    · rw [hmore]
      exact step _ _ _ _ _ _ haxes hlink hands
  unfold spreadAxes
  induction links.length with
  | zero => exact h
  | succ rounds ih => exact hround _ ih

/-! ### Rounds settle -/

/-- Whether a line of the link has no axis yet. -/
def isOpen (axes : Axes) (link : AxisLink α) : Bool :=
  (axes.lookup link.first).isNone || (axes.lookup link.second).isNone

theorem isOpen_of_append {more : Axes} (h : isOpen (axes ++ more) link = true) :
    isOpen axes link = true := by
  simp only [isOpen, List.lookup_append, Bool.or_eq_true, Option.isNone_iff_eq_none,
    Option.or_eq_none_iff] at h ⊢
  exact h.imp And.left And.left

theorem HandsOn.isOpen (h : HandsOn axes link known line source handed) :
    isOpen axes link = true ∧ isOpen (axes ++ [(line, handed)]) link = false := by
  have hknown := lookup_append_of_eq_some [(line, handed)] h.lookup_known
  have hline := lookup_append_self h.lookup_line handed
  unfold Conflict.isOpen
  rcases h.ends with ⟨rfl, rfl⟩ | ⟨rfl, rfl⟩ <;> simp [h.lookup_line, hknown, hline]

theorem countP_isOpen_append_lt (hlink : link ∈ links)
    (h : HandsOn axes link known line source handed) :
    links.countP (isOpen (axes ++ [(line, handed)])) < links.countP (isOpen axes) :=
  countP_lt_of_imp (fun _ => isOpen_of_append) hlink h.isOpen.2 h.isOpen.1

theorem foldl_follow_cases {part : List (AxisLink α)} (hpart : part ⊆ links) (axes : Axes) :
    (part.foldl follow axes = axes ∧ ∀ link ∈ part, IsSpent axes link) ∨
      links.countP (isOpen (part.foldl follow axes)) < links.countP (isOpen axes) := by
  induction part generalizing axes with
  | nil => exact Or.inl ⟨rfl, nofun⟩
  | cons link rest ih =>
    obtain ⟨hlink, hrest⟩ := List.cons_subset.mp hpart
    rw [List.foldl_cons]
    rcases follow_cases axes link with ⟨hsame, hspent⟩ | ⟨_, _, _, _, hands, hmore⟩
    · rw [hsame]
      exact (ih hrest axes).imp_left fun ⟨hround, hall⟩ =>
        ⟨hround, List.forall_mem_cons.mpr ⟨hspent, hall⟩⟩
    · have hless := countP_isOpen_append_lt hlink hands
      rw [hmore]
      rcases ih hrest (axes ++ [(_, _)]) with ⟨hround, -⟩ | hround
      · rw [hround]
        exact Or.inr hless
      · exact Or.inr (Nat.lt_trans hround hless)

theorem settles_spreadAxes (links : List (AxisLink α)) (axes : Axes) :
    Settles (fun axes => links.foldl follow axes) axes (spreadAxes links axes) := by
  refine settles_repeat (fun axes => links.countP (isOpen axes)) ?_ List.countP_le_length
  intro axes hchanges
  exact (foldl_follow_cases (List.Subset.refl links) axes).resolve_left fun h => hchanges h.1

theorem isSpent_spreadAxes (axes : Axes) (hlink : link ∈ links) :
    IsSpent (spreadAxes links axes) link := by
  have hfixed := (settles_spreadAxes links axes).fixed
  rcases foldl_follow_cases (List.Subset.refl links) (spreadAxes links axes) with h | hless
  · exact h.2 link hlink
  · rw [hfixed] at hless
    exact absurd hless (Nat.lt_irrefl _)

end Conflict

end PlaneSketch
