import PlaneSketch.Binary64
import Mathlib.Data.Prod.Lex

/-!
# The order of scalars

Comparison is a linear order of the values that compare with themselves; a value that does not (a
NaN) compares with nothing. Finite values compare with themselves. The theory of solving assumes
nothing else of `<` and `≤`. Binary64 keeps these laws: a number that is no NaN has a key in a
lexicographic order of integers, and comparison is the comparison of the keys.
-/

namespace PlaneSketch

open Scalar

/-- A carrier whose comparison is a linear order, up to values that compare with nothing. -/
class OrderedScalar (α : Type) [Scalar α] : Prop where
  lt_iff (a b : α) : a < b ↔ a ≤ b ∧ ¬b ≤ a
  trans (a b c : α) : a ≤ b → b ≤ c → a ≤ c
  total (a b : α) : a ≤ a → b ≤ b → a ≤ b ∨ b ≤ a
  self_of_isFinite (a : α) : isFinite a = true → a ≤ a

namespace OrderedScalar

variable {α : Type} [Scalar α] [OrderedScalar α] {a b c : α}

theorem le_of_lt (h : a < b) : a ≤ b := ((lt_iff a b).mp h).1

theorem lt_of_le_of_lt (hab : a ≤ b) (hbc : b < c) : a < c := by
  have hbc' := (lt_iff b c).mp hbc
  refine (lt_iff a c).mpr ⟨trans a b c hab hbc'.1, ?_⟩
  intro hca
  exact hbc'.2 (trans c a b hca hab)

theorem lt_of_lt_of_le (hab : a < b) (hbc : b ≤ c) : a < c := by
  have hab' := (lt_iff a b).mp hab
  refine (lt_iff a c).mpr ⟨trans a b c hab'.1 hbc, ?_⟩
  intro hca
  exact hab'.2 (trans b c a hbc hca)

theorem le_of_not_lt (ha : isFinite a = true) (hb : isFinite b = true) (h : ¬a < b) : b ≤ a := by
  rcases total a b (self_of_isFinite a ha) (self_of_isFinite b hb) with hab | hba
  · by_contra hba
    exact h ((lt_iff a b).mpr ⟨hab, hba⟩)
  · exact hba

end OrderedScalar

/-! ### Binary64 -/

namespace Binary64

open Float.Model (UnpackedFloat)

/-- A number's place in the order: its kind from negative to positive infinity, then exponent and
mantissa, both with its sign. A NaN has no place. -/
def orderKey : UnpackedFloat → Option (Int ×ₗ Int ×ₗ Int)
  | .notANumber => none
  | .infinity .negative => some (toLex (-2, toLex (0, 0)))
  | .finite .negative m e _ => some (toLex (-1, toLex (-e, -(m : Int))))
  | .zero _ => some (toLex (0, toLex (0, 0)))
  | .finite .positive m e _ => some (toLex (1, toLex (e, (m : Int))))
  | .infinity .positive => some (toLex (2, toLex (0, 0)))

theorem compare_then_eq_lt (e f : Int) (m n : Nat) :
    (compare e f).then (compare m n) = .lt ↔ e < f ∨ e = f ∧ m < n := by
  rw [Ordering.then_eq_lt, Int.compare_eq_lt, Int.compare_eq_eq, Nat.compare_eq_lt]

theorem compare_then_eq_gt (e f : Int) (m n : Nat) :
    (compare e f).then (compare m n) = .gt ↔ f < e ∨ e = f ∧ n < m := by
  rw [Ordering.then_eq_gt, Int.compare_eq_gt, Int.compare_eq_eq, Nat.compare_eq_gt]

theorem unpacked_lt_iff (a b : UnpackedFloat) :
    a.lt b = true ↔ ∃ x ∈ orderKey a, ∃ y ∈ orderKey b, x < y := by
  rcases a with (_ | _) | _ | _ | ⟨(_ | _), m, e, hm⟩ <;>
    rcases b with (_ | _) | _ | _ | ⟨(_ | _), n, f, hn⟩ <;>
    dsimp only [UnpackedFloat.lt, UnpackedFloat.compare, orderKey] <;>
    simp [Prod.Lex.toLex_lt_toLex, compare_then_eq_lt, compare_then_eq_gt]
  case infinity.negative.infinity.positive => rfl

theorem unpacked_le_iff (a b : UnpackedFloat) :
    a.le b = true ↔ ∃ x ∈ orderKey a, ∃ y ∈ orderKey b, x ≤ y := by
  rcases a with (_ | _) | _ | _ | ⟨(_ | _), m, e, hm⟩ <;>
    rcases b with (_ | _) | _ | _ | ⟨(_ | _), n, f, hn⟩ <;>
    dsimp only [UnpackedFloat.le, UnpackedFloat.compare, orderKey] <;>
    simp [Prod.Lex.toLex_le_toLex, Ordering.isLE_iff_ne_gt, Ordering.isGE_iff_ne_lt,
      compare_then_eq_lt, compare_then_eq_gt]
  case infinity.positive.infinity.negative => rfl
  all_goals omega

/-- The number's place in the order. -/
def place? (x : Float) : Option (Int ×ₗ Int ×ₗ Int) := orderKey x.toModel.unpack

theorem lt_iff_place (a b : Float) : a < b ↔ ∃ x ∈ place? a, ∃ y ∈ place? b, x < y := by
  show decide (a.toModel.unpack.lt b.toModel.unpack = true) = true ↔ _
  rw [decide_eq_true_iff]
  exact unpacked_lt_iff _ _

theorem le_iff_place (a b : Float) : a ≤ b ↔ ∃ x ∈ place? a, ∃ y ∈ place? b, x ≤ y := by
  show decide (a.toModel.unpack.le b.toModel.unpack = true) = true ↔ _
  rw [decide_eq_true_iff]
  exact unpacked_le_iff _ _

theorem exists_orderKey {a : UnpackedFloat} (h : a.isFinite = true) : ∃ x, x ∈ orderKey a := by
  rcases a with _ | _ | _ | ⟨(_ | _), m, e, hm⟩
  · cases h
  · cases h
  · exact ⟨_, rfl⟩
  · exact ⟨_, rfl⟩
  · exact ⟨_, rfl⟩

instance : OrderedScalar Float where
  lt_iff a b := by
    refine (lt_iff_place a b).trans ?_
    rw [le_iff_place, le_iff_place]
    constructor
    · rintro ⟨x, hx, y, hy, hxy⟩
      refine ⟨⟨x, hx, y, hy, hxy.le⟩, ?_⟩
      rintro ⟨y', hy', x', hx', hyx⟩
      obtain rfl := Option.mem_unique hx hx'
      obtain rfl := Option.mem_unique hy hy'
      exact hxy.not_ge hyx
    · rintro ⟨⟨x, hx, y, hy, _⟩, hyx⟩
      refine ⟨x, hx, y, hy, not_le.mp ?_⟩
      intro hle
      exact hyx ⟨y, hy, x, hx, hle⟩
  trans a b c := by
    rw [le_iff_place, le_iff_place, le_iff_place]
    rintro ⟨x, hx, y, hy, hxy⟩ ⟨y', hy', z, hz, hyz⟩
    obtain rfl := Option.mem_unique hy hy'
    exact ⟨x, hx, z, hz, hxy.trans hyz⟩
  total a b := by
    rw [le_iff_place, le_iff_place, le_iff_place, le_iff_place]
    rintro ⟨x, hx, -⟩ ⟨y, hy, -⟩
    rcases le_total x y with hxy | hyx
    · exact Or.inl ⟨x, hx, y, hy, hxy⟩
    · exact Or.inr ⟨y, hy, x, hx, hyx⟩
  self_of_isFinite a h := by
    have finite : a.toModel.unpack.isFinite = true := h
    obtain ⟨x, hx⟩ := exists_orderKey finite
    exact (le_iff_place a a).mpr ⟨x, hx, x, hx, le_refl x⟩

end Binary64

end PlaneSketch
