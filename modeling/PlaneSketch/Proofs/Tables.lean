import Mathlib.Data.List.Sort
import PlaneSketch.Proofs.Listing

/-!
# Tables

A set is written as a list of its members and a table as a list of keys with values, no key twice.
The order of such a list means nothing: a set or a table may turn up in another order each time it
is used. Steps that only ask whether something is a member, or look it up under its key, come to the
same for all that.
-/

namespace PlaneSketch

variable {β κ τ ι : Type}

/-! ### Sets -/

/-- Two lists of the same set. -/
def SameMembers (xs ys : List β) : Prop := ∀ b, b ∈ xs ↔ b ∈ ys

theorem SameMembers.refl (xs : List β) : SameMembers xs xs := fun _ => Iff.rfl

theorem SameMembers.symm {xs ys : List β} (h : SameMembers xs ys) : SameMembers ys xs :=
  fun b => (h b).symm

theorem SameMembers.trans {xs ys zs : List β} (h : SameMembers xs ys) (h' : SameMembers ys zs) :
    SameMembers xs zs :=
  fun b => (h b).trans (h' b)

theorem SameMembers.append {xs ys xs' ys' : List β} (h : SameMembers xs ys)
    (h' : SameMembers xs' ys') : SameMembers (xs ++ xs') (ys ++ ys') := by
  intro b
  rw [List.mem_append, List.mem_append, h b, h' b]

theorem SameMembers.any_eq {xs ys : List β} [DecidableEq β] (h : SameMembers xs ys)
    (own : List β) : own.any (· ∈ xs) = own.any (· ∈ ys) := by
  simp only [h _]

/-- A set has one ascending list. -/
theorem SameMembers.ascending_eq {lt : β → β → Bool} {xs ys : List β} (h : SameMembers xs ys)
    (hirrefl : ∀ a, lt a a = false)
    (htrans : ∀ a b c, lt a b = true → lt b c = true → lt a c = true)
    (htotal : ∀ a b, lt a b = false → lt b a = false → a = b) :
    ascending lt xs = ascending lt ys := by
  have : Std.Irrefl fun a b => lt a b = true := ⟨fun a => by rw [hirrefl]; exact Bool.false_ne_true⟩
  have : Std.Asymm fun a b => lt a b = true := by
    refine ⟨fun a b hab hba => ?_⟩
    have hloop := htrans a b a hab hba
    rw [hirrefl] at hloop
    cases hloop
  refine List.Pairwise.eq_of_mem_iff (pairwise_ascending htrans htotal xs)
    (pairwise_ascending htrans htotal ys) fun b => ?_
  rw [mem_ascending_iff htotal, mem_ascending_iff htotal]
  exact h b

theorem SameMembers.ascendingIds_eq {ids ids' : List ConstraintId} (h : SameMembers ids ids') :
    ascendingIds ids = ascendingIds ids' :=
  h.ascending_eq ConstraintId.lt_irrefl ConstraintId.lt_trans ConstraintId.eq_of_lt_eq_false

theorem SameMembers.ascending_nat_eq {raws raws' : List Nat} (h : SameMembers raws raws') :
    ascending (fun a b => a < b) raws = ascending (fun a b => a < b) raws' := by
  refine h.ascending_eq (fun a => decide_eq_false (Nat.lt_irrefl a)) ?_ ?_
  · intro a b c hab hbc
    exact decide_eq_true (Nat.lt_trans (of_decide_eq_true hab) (of_decide_eq_true hbc))
  · intro a b hab hba
    simp only [decide_eq_false_iff_not] at hab hba
    omega

/-! ### Tables -/

section Tables

variable [DecidableEq κ] {table other : List (κ × β)}

theorem lookup_cons_eq_ite (key first : κ) (b : β) (rest : List (κ × β)) :
    ((first, b) :: rest).lookup key = if key = first then some b else rest.lookup key := by
  rw [List.lookup_cons]
  by_cases hkey : key = first
  · rw [if_pos hkey, beq_iff_eq.mpr hkey]
  · rw [if_neg hkey, beq_eq_false_iff_ne.mpr hkey]

theorem lookup_eq_some_iff_mem (hkeys : (table.map Prod.fst).Nodup) {key : κ} {b : β} :
    table.lookup key = some b ↔ (key, b) ∈ table := by
  induction table with
  | nil => exact iff_of_false nofun List.not_mem_nil
  | cons entry rest ih =>
    obtain ⟨first, c⟩ := entry
    obtain ⟨hfirst, hrest⟩ := List.nodup_cons.mp hkeys
    rw [lookup_cons_eq_ite, List.mem_cons, Prod.mk.injEq]
    by_cases hkey : key = first
    · subst hkey
      have hnone : (key, b) ∉ rest := fun hin => hfirst (List.mem_map.mpr ⟨_, hin, rfl⟩)
      simp [hnone, eq_comm]
    · simp [hkey, ih hrest]

/-- The other table has the same look-ups, and no key twice. -/
structure LooksUpAs (table other : List (κ × β)) : Prop where
  keys_nodup : (other.map Prod.fst).Nodup
  lookup_eq : ∀ key, other.lookup key = table.lookup key

theorem LooksUpAs.of_nodup (hkeys : (table.map Prod.fst).Nodup) : LooksUpAs table table :=
  ⟨hkeys, fun _ => rfl⟩

theorem LooksUpAs.shuffle {shuffled : List (κ × β)} (h : LooksUpAs table other)
    (hperm : other.Perm shuffled) : LooksUpAs table shuffled := by
  have hkeys : (shuffled.map Prod.fst).Nodup := (hperm.map Prod.fst).nodup_iff.mp h.keys_nodup
  refine ⟨hkeys, fun key => ?_⟩
  rw [← h.lookup_eq]
  refine Option.ext fun b => ?_
  rw [lookup_eq_some_iff_mem hkeys, lookup_eq_some_iff_mem h.keys_nodup, hperm.mem_iff]

theorem LooksUpAs.perm (h : LooksUpAs table other) (hkeys : (table.map Prod.fst).Nodup) :
    table.Perm other := by
  have hentries : table.Nodup := .of_map Prod.fst hkeys
  have hothers : other.Nodup := .of_map Prod.fst h.keys_nodup
  refine (List.perm_ext_iff_of_nodup hentries hothers).mpr ?_
  rintro ⟨key, b⟩
  rw [← lookup_eq_some_iff_mem hkeys, ← lookup_eq_some_iff_mem h.keys_nodup, h.lookup_eq]

end Tables

/-! ### Shuffled steps -/

/-- Steps over something that is written down anew, in another way that is alike, before each of
them and at the end. -/
inductive Shuffles (Alike : τ → τ → Prop) (step : τ → ι → τ) : List ι → τ → τ → Prop
  | done {kept last} (alike : Alike kept last) : Shuffles Alike step [] kept last
  | next {i rest kept shuffled last} (alike : Alike kept shuffled)
    (later : Shuffles Alike step rest (step shuffled i) last) :
    Shuffles Alike step (i :: rest) kept last

variable {Alike : τ → τ → Prop} {step : τ → ι → τ}

theorem shuffles_foldl (hrefl : ∀ kept, Alike kept kept) (steps : List ι) (kept : τ) :
    Shuffles Alike step steps kept (steps.foldl step kept) := by
  induction steps generalizing kept with
  | nil => exact .done (hrefl kept)
  | cons i rest ih => exact .next (hrefl kept) (ih (step kept i))

/-- What writing down anew and each step keep relates the steps without shuffling to those with
it. -/
theorem Shuffles.simulates {motive : τ → τ → Prop}
    (halike : ∀ {kept shown shown'}, motive kept shown → Alike shown shown' → motive kept shown')
    (hstep : ∀ {kept shown} i, motive kept shown → motive (step kept i) (step shown i))
    {steps : List ι} {kept shown last : τ} (h : Shuffles Alike step steps shown last)
    (hsim : motive kept shown) : motive (steps.foldl step kept) last := by
  induction h generalizing kept with
  | done alike => exact halike hsim alike
  | next alike later ih => exact ih (hstep _ (halike hsim alike))

theorem repeat_foldl (step : τ → ι → τ) (steps : List ι) (rounds : Nat) (kept : τ) :
    Nat.repeat (fun kept => steps.foldl step kept) rounds kept =
      (List.replicate rounds steps).flatten.foldl step kept := by
  induction rounds with
  | zero => rfl
  | succ rounds ih =>
    show steps.foldl step (Nat.repeat _ rounds kept) = _
    rw [ih, List.replicate_succ', List.flatten_append, List.foldl_append, List.flatten_singleton]

end PlaneSketch
