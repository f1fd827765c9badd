import Mathlib
import PlaneSketch.Proofs.Order

/-!
# Signs of rounded results

Rounding may let a result vanish or overflow, but it keeps the sign. So a difference is positive
only if the first number is the larger one, a quotient by a positive number only if the numerator is
positive, and a sum of squares of finite numbers is a number or infinity and never undefined.
-/

namespace PlaneSketch.Binary64

open Float.Model (Format UnpackedFloat)
open Float.Model.UnpackedFloat

/-! ### Rounding and packing -/

/-- Whether the value has this sign; an undefined value has none. -/
def HasSign (s : Sign) : UnpackedFloat → Prop
  | .infinity t | .zero t | .finite t .. => t = s
  | .notANumber => False

def IsPositive : UnpackedFloat → Prop
  | .infinity .positive | .finite .positive .. => True
  | _ => False

theorem hasSign_unpack_packComponents {s : Sign} {e : BitVec 11} {m : BitVec 52}
    (h : e ≠ -1#11 ∨ m = 0) :
    HasSign s (unpack Format.binary64 (packComponents Format.binary64 s e m)) := by
  simp only [unpack, unpackExponent_packComponents, unpackMantissa_packComponents,
    unpackSign_packComponents, Sign.ofBitVec_toBitVec]
  split_ifs with hspecial hzero hsmall hnone
  · exact rfl
  · exact h.elim (absurd hspecial) (absurd · hzero)
  · exact rfl
  · exact rfl
  · exact rfl

theorem hasSign_pack {s : Sign} {u : UnpackedFloat} (h : HasSign s u) :
    HasSign s (Float.Model.pack u).unpack := by
  show HasSign s (unpack Format.binary64 (UnpackedFloat.pack Format.binary64 u))
  cases u with
  | notANumber => exact h.elim
  | infinity t => exact h ▸ hasSign_unpack_packComponents (Or.inr rfl)
  | zero t => exact h ▸ hasSign_unpack_packComponents (Or.inr rfl)
  | finite t m e hm =>
    obtain rfl : t = s := h
    simp only [UnpackedFloat.pack]
    split_ifs with hlarge hnormal
    · exact hasSign_unpack_packComponents (Or.inr rfl)
    · refine hasSign_unpack_packComponents (Or.inl ?_)
      intro hspecial
      have hvalue := congrArg BitVec.toNat hspecial
      simp only [BitVec.toNat_ofNat, BitVec.reduceNeg] at hvalue
      omega
    · exact hasSign_unpack_packComponents (Or.inl (by decide))

theorem isPositive_of_pack {u : UnpackedFloat} (h : IsPositive (Float.Model.pack u).unpack) :
    IsPositive u := by
  have hnegative (v : UnpackedFloat) (hv : HasSign .negative v) : ¬IsPositive v := by
    rcases v with (_ | _) | _ | _ | ⟨(_ | _), m, e, hm⟩ <;> simp_all [HasSign, IsPositive]
  rcases u with (_ | _) | _ | (_ | _) | ⟨(_ | _), m, e, hm⟩
  · exact absurd h (hnegative _ (hasSign_pack rfl))
  · trivial
  · exact h.elim
  · exact h.elim
  · exact h.elim
  · exact absurd h (hnegative _ (hasSign_pack rfl))
  · trivial

theorem roundWithAccuracy_cases (spec : Format) (s : Sign) (m : Nat) (e : Int) (a : Accuracy) :
    roundWithAccuracy spec s m e a = .zero s ∨
      ∃ n f hn, roundWithAccuracy spec s m e a = .finite s n f hn := by
  unfold roundWithAccuracy
  dsimp only
  split
  next => exact Or.inl rfl
  next hmantissa => exact Or.inr ⟨_, _, Nat.pos_of_ne_zero hmantissa, rfl⟩

theorem hasSign_roundWithAccuracy (spec : Format) (s : Sign) (m : Nat) (e : Int) (a : Accuracy) :
    HasSign s (roundWithAccuracy spec s m e a) := by
  rcases roundWithAccuracy_cases spec s m e a with h | ⟨_, _, _, h⟩
  · rw [h]
    rfl
  · rw [h]
    rfl

theorem eq_positive_of_roundWithAccuracy {spec : Format} {s : Sign} {m : Nat} {e : Int}
    {a : Accuracy} (h : IsPositive (roundWithAccuracy spec s m e a)) : s = .positive := by
  rcases roundWithAccuracy_cases spec s m e a with hround | ⟨_, _, _, hround⟩
  · rw [hround] at h
    exact h.elim
  · rw [hround] at h
    cases s with
    | negative => exact h.elim
    | positive => rfl

theorem pos_of_normalize {spec : Format} {d e : Int}
    (h : IsPositive (UnpackedFloat.normalize spec d e .positive)) : 0 < d := by
  unfold UnpackedFloat.normalize at h
  split at h
  · exact absurd (eq_positive_of_roundWithAccuracy h) nofun
  · exact h.elim
  next hcompare => exact Int.compare_eq_gt.mp hcompare

theorem lt_iff_unpack (a b : Float) : a < b ↔ a.toModel.unpack.lt b.toModel.unpack = true :=
  decide_eq_true_iff

theorem zero_lt_iff (x : Float) : 0.0 < x ↔ IsPositive x.toModel.unpack := by
  have hzero : (0.0 : Float).toModel.unpack = .zero .positive := rfl
  rw [lt_iff_unpack, hzero]
  rcases x.toModel.unpack with (_ | _) | _ | _ | ⟨(_ | _), m, e, hm⟩ <;>
    simp [IsPositive, UnpackedFloat.lt, UnpackedFloat.compare]

/-! ### Differences -/

/-- What packing makes of a mantissa: 53 bits, and fewer only at the least exponent. -/
theorem bounds_of_unpack {b : BitVec Format.binary64.numBits} {s : Sign} {m : Nat} {e : Int}
    {hm : 0 < m} (h : unpack Format.binary64 b = .finite s m e hm) :
    m < 2 ^ 53 ∧ -1074 ≤ e ∧ (-1074 < e → 2 ^ 52 ≤ m) := by
  have hfraction : (unpackMantissa b).toNat < 2 ^ 52 := (unpackMantissa b).isLt
  have hbias : (Format.binary64.exponentBias : Int) = 1023 := rfl
  unfold unpack at h
  dsimp only at h
  split_ifs at h with hspecial hzero hsmall hnone
  · cases h
    rw [hsmall, hbias]
    simp only [BitVec.toNat_ofNat]
    omega
  · cases h
    have hexponent : 0 < (unpackExponent b).toNat := by
      rw [Nat.pos_iff_ne_zero]
      intro hvalue
      exact hsmall (BitVec.eq_of_toNat_eq hvalue)
    have hmantissa : (1#1 ++ unpackMantissa b).toNat = 2 ^ 52 + (unpackMantissa b).toNat := by
      rw [BitVec.toNat_append, ← Nat.shiftLeft_add_eq_or_of_lt (unpackMantissa b).isLt]
      rfl
    rw [hmantissa, hbias]
    omega

/-- A number with the greater exponent is the greater one, whatever the mantissas. -/
theorem mantissa_lt_shiftLeft {m n : Nat} {e f : Int} (hm : m < 2 ^ 53) (hn : 2 ^ 52 ≤ n)
    (h : e < f) : m <<< (e - min e f).toNat < n <<< (f - min e f).toNat := by
  have hgap : ∃ k, (f - min e f).toNat = k + 1 := ⟨(f - min e f).toNat - 1, by omega⟩
  obtain ⟨k, hk⟩ := hgap
  have hpow : n ≤ n * 2 ^ k := Nat.le_mul_of_pos_right n (Nat.two_pow_pos k)
  rw [hk, show (e - min e f).toNat = 0 by omega, Nat.shiftLeft_zero, Nat.shiftLeft_eq, Nat.pow_succ,
    ← Nat.mul_assoc]
  omega

/-- Packed magnitudes are ordered as their mantissas at a common exponent. -/
theorem lex_lt_of_shiftLeft {m n : Nat} {e f : Int} (hm : m < 2 ^ 53) (hleast : -1074 ≤ e)
    (hn : -1074 < f → 2 ^ 52 ≤ n)
    (h : n <<< (f - min e f).toNat < m <<< (e - min e f).toNat) :
    f < e ∨ f = e ∧ n < m := by
  rcases Int.lt_trichotomy e f with hlt | rfl | hgt
  · have hgreater := mantissa_lt_shiftLeft hm (hn (by omega)) hlt
    omega
  · simp only [Int.min_self, Int.sub_self, Int.toNat_zero, Nat.shiftLeft_zero] at h
    exact Or.inr ⟨rfl, h⟩
  · exact Or.inl hgt

theorem unpacked_lt_of_sub {a b : BitVec Format.binary64.numBits}
    (h : IsPositive (sub Format.binary64 (unpack Format.binary64 a) (unpack Format.binary64 b))) :
    (unpack Format.binary64 b).lt (unpack Format.binary64 a) = true := by
  generalize ha : unpack Format.binary64 a = x at h ⊢
  generalize hb : unpack Format.binary64 b = y at h ⊢
  rcases x with (_ | _) | _ | (_ | _) | ⟨(_ | _), m, e, hm⟩ <;>
    rcases y with (_ | _) | _ | (_ | _) | ⟨(_ | _), n, f, hn⟩
  case finite.negative.finite.negative =>
    obtain ⟨-, -, hmleast⟩ := bounds_of_unpack ha
    obtain ⟨hnbound, hnleast, -⟩ := bounds_of_unpack hb
    have hpositive : 0 < -((m <<< (e - min e f).toNat : Nat) : Int) -
        -((n <<< (f - min e f).toNat : Nat) : Int) := pos_of_normalize h
    rw [Int.min_comm e f] at hpositive
    have hlex := lex_lt_of_shiftLeft hnbound hnleast hmleast (by omega)
    have hcompare := (compare_then_eq_gt f e n m).mpr (hlex.imp_right (And.imp_left Eq.symm))
    simp [UnpackedFloat.lt, UnpackedFloat.compare, hcompare]
  case finite.negative.finite.positive =>
    have hpositive : 0 < -((m <<< (e - min e f).toNat : Nat) : Int) -
        ((n <<< (f - min e f).toNat : Nat) : Int) := pos_of_normalize h
    generalize m <<< (e - min e f).toNat = first at hpositive
    generalize n <<< (f - min e f).toNat = second at hpositive
    omega
  case finite.positive.finite.positive =>
    obtain ⟨hmbound, hmleast, -⟩ := bounds_of_unpack ha
    obtain ⟨-, -, hnleast⟩ := bounds_of_unpack hb
    have hpositive : 0 < ((m <<< (e - min e f).toNat : Nat) : Int) -
        ((n <<< (f - min e f).toNat : Nat) : Int) := pos_of_normalize h
    have hlex := lex_lt_of_shiftLeft hmbound hmleast hnleast (by omega)
    have hcompare := (compare_then_eq_lt f e n m).mpr hlex
    simp [UnpackedFloat.lt, UnpackedFloat.compare, hcompare]
  -- the rest is decided by kinds and signs alone
  all_goals first | exact h.elim | rfl

theorem lt_of_sub_pos {a b : Float} (h : 0.0 < a - b) : b < a := by
  rw [zero_lt_iff] at h
  exact (lt_iff_unpack b a).mpr (unpacked_lt_of_sub (isPositive_of_pack h))

/-! ### Quotients -/

theorem isPositive_of_div {spec : Format} {x y : UnpackedFloat} (h : IsPositive (div spec x y))
    (hy : IsPositive y) : IsPositive x := by
  rcases y with (_ | _) | _ | _ | ⟨(_ | _), n, f, hn⟩
  case infinity.positive =>
    cases x <;> exact h.elim
  case finite.positive =>
    rcases x with (_ | _) | _ | _ | ⟨(_ | _), m, e, hm⟩
    case infinity.positive | finite.positive => trivial
    case finite.negative => exact absurd (eq_positive_of_roundWithAccuracy h) nofun
    all_goals exact h.elim
  all_goals exact hy.elim

theorem pos_of_div_pos {a b : Float} (h : 0.0 < a / b) (hb : 0.0 < b) : 0.0 < a := by
  rw [zero_lt_iff] at h hb ⊢
  exact isPositive_of_div (isPositive_of_pack h) hb

/-! ### Sums of squares -/

theorem hasSign_normalize {spec : Format} {d e : Int} (h : 0 ≤ d) :
    HasSign .positive (UnpackedFloat.normalize spec d e .positive) := by
  unfold UnpackedFloat.normalize
  split
  next hcompare => exact absurd h (Int.not_le.mpr (Int.compare_eq_lt.mp hcompare))
  · rfl
  · exact hasSign_roundWithAccuracy ..

theorem hasSign_add {spec : Format} {x y : UnpackedFloat} (hx : HasSign .positive x)
    (hy : HasSign .positive y) : HasSign .positive (add spec x y) := by
  rcases x with _ | _ | _ | ⟨s, m, e, hm⟩ <;> rcases y with _ | _ | _ | ⟨t, n, f, hn⟩
  case finite.finite =>
    obtain rfl : s = .positive := hx
    obtain rfl : t = .positive := hy
    exact hasSign_normalize (Int.add_nonneg (Int.natCast_nonneg _) (Int.natCast_nonneg _))
  all_goals first | exact hx.elim | exact hy.elim | (cases hx; cases hy; rfl)

theorem hasSign_mul_self {spec : Format} {x : UnpackedFloat} (h : x.isFinite = true) :
    HasSign .positive (mul spec x x) := by
  rcases x with _ | _ | (_ | _) | ⟨(_ | _), m, e, hm⟩
  case zero.negative | zero.positive => rfl
  case finite.negative | finite.positive => exact hasSign_roundWithAccuracy ..
  all_goals cases h

theorem hasSign_mul_of_finite {spec : Format} {m : Nat} {e : Int} {hm : 0 < m} {x : UnpackedFloat}
    (h : HasSign .positive x) : HasSign .positive (mul spec (.finite .positive m e hm) x) := by
  rcases x with _ | _ | _ | ⟨s, n, f, hn⟩
  case notANumber => exact h.elim
  case finite =>
    obtain rfl : s = .positive := h
    exact hasSign_roundWithAccuracy ..
  all_goals cases h; rfl

/-- A number or infinity with a positive sign, which may be zero. -/
def IsMagnitude (x : Float) : Prop := HasSign .positive x.toModel.unpack

theorem IsMagnitude.add {x y : Float} (hx : IsMagnitude x) (hy : IsMagnitude y) :
    IsMagnitude (x + y) :=
  hasSign_pack (hasSign_add hx hy)

theorem isMagnitude_mul_self {x : Float} (h : x.isFinite = true) : IsMagnitude (x * x) :=
  hasSign_pack (hasSign_mul_self h)

theorem IsMagnitude.half {x : Float} (h : IsMagnitude x) : IsMagnitude (0.5 * x) := by
  have hhalf : (0.5 : Float).toModel.unpack = .finite .positive (2 ^ 52) (-53) (by decide) := rfl
  refine hasSign_pack ?_
  rw [hhalf]
  exact hasSign_mul_of_finite h

theorem exists_orderKey_of_hasSign {s : Sign} {x : UnpackedFloat} (h : HasSign s x) :
    ∃ key, key ∈ orderKey x := by
  rcases x with (_ | _) | _ | _ | ⟨(_ | _), m, e, hm⟩
  case notANumber => exact h.elim
  all_goals exact ⟨_, rfl⟩

theorem IsMagnitude.le_self {x : Float} (h : IsMagnitude x) : x ≤ x := by
  obtain ⟨key, hkey⟩ := exists_orderKey_of_hasSign h
  exact (le_iff_place x x).mpr ⟨key, hkey, key, hkey, le_refl key⟩

/-! ### Square roots -/

/-- A square root is undefined or has a positive sign, except that of negative zero. -/
theorem sqrt_cases (spec : Format) (x : UnpackedFloat) :
    UnpackedFloat.sqrt spec x = .notANumber ∨ (∃ s, UnpackedFloat.sqrt spec x = .zero s) ∨
      HasSign .positive (UnpackedFloat.sqrt spec x) := by
  rcases x with (_ | _) | _ | s | ⟨(_ | _), m, e, hm⟩
  case infinity.negative | notANumber | finite.negative => exact Or.inl rfl
  case zero => exact Or.inr (Or.inl ⟨s, rfl⟩)
  case infinity.positive => exact Or.inr (Or.inr rfl)
  case finite.positive => exact Or.inr (Or.inr (hasSign_roundWithAccuracy ..))

theorem lt_zero_of_hasSign {x : UnpackedFloat} (h : HasSign .positive x) :
    x.lt (.zero .positive) = false := by
  rcases x with (_ | _) | _ | s | ⟨(_ | _), m, e, hm⟩
  case infinity.negative | finite.negative => cases h
  case notANumber => exact h.elim
  all_goals rfl

theorem not_pack_lt_zero {x : UnpackedFloat}
    (h : x = .notANumber ∨ (∃ s, x = .zero s) ∨ HasSign .positive x) :
    ¬(Float.Model.pack x).unpack.lt (.zero .positive) = true := by
  rcases h with rfl | ⟨s, rfl⟩ | h
  · exact nofun
  · cases s <;> exact nofun
  · rw [lt_zero_of_hasSign (hasSign_pack h)]
    exact nofun

theorem not_sqrt_lt_zero (x : Float) : ¬x.sqrt < 0.0 := by
  rw [lt_iff_unpack]
  exact not_pack_lt_zero (sqrt_cases Format.binary64 x.toModel.unpack)

/-! ### Products -/

/-- The product of a number that is not negative with a positive one is not negative either; it may
be undefined, or vanish with any sign. -/
theorem mul_cases {spec : Format} {x y : UnpackedFloat} (hx : ¬x.lt (.zero .positive) = true)
    (hy : IsPositive y) : mul spec x y = .notANumber ∨ (∃ s, mul spec x y = .zero s) ∨
      HasSign .positive (mul spec x y) := by
  rcases y with (_ | _) | _ | _ | ⟨(_ | _), n, f, hn⟩
  case infinity.positive =>
    rcases x with (_ | _) | _ | s | ⟨(_ | _), m, e, hm⟩
    case infinity.negative | finite.negative => exact absurd rfl hx
    case infinity.positive | finite.positive => exact Or.inr (Or.inr rfl)
    case notANumber | zero => exact Or.inl rfl
  case finite.positive =>
    rcases x with (_ | _) | _ | s | ⟨(_ | _), m, e, hm⟩
    case infinity.negative | finite.negative => exact absurd rfl hx
    case infinity.positive => exact Or.inr (Or.inr rfl)
    case finite.positive => exact Or.inr (Or.inr (hasSign_roundWithAccuracy ..))
    case notANumber => exact Or.inl rfl
    case zero => exact Or.inr (Or.inl ⟨_, rfl⟩)
  all_goals exact hy.elim

theorem not_mul_lt_zero {x y : Float} (hx : ¬x < 0.0) (hy : 0.0 < y) : ¬x * y < 0.0 := by
  rw [zero_lt_iff] at hy
  rw [lt_iff_unpack] at hx ⊢
  exact not_pack_lt_zero (mul_cases hx hy)

/-! ### Zeros -/

theorem unpacked_sub_self {spec : Format} {x : UnpackedFloat} (h : x.isFinite = true) :
    sub spec x x = .zero .positive := by
  rcases x with _ | _ | (_ | _) | ⟨s, m, e, hm⟩
  case zero.negative | zero.positive => rfl
  case finite => simp [sub, UnpackedFloat.normalize]
  all_goals cases h

theorem sub_self_of_isFinite {x : Float} (h : x.isFinite = true) : x - x = 0.0 :=
  congrArg (fun u => Float.ofModel (Float.Model.pack u)) (unpacked_sub_self h)

theorem exists_mul_zero (spec : Format) {x : UnpackedFloat} (h : x.isFinite = true) :
    ∃ s, mul spec x (.zero .positive) = .zero s := by
  rcases x with _ | _ | _ | _
  case infinity | notANumber => cases h
  all_goals exact ⟨_, rfl⟩

/-- Also where the product is negative zero. -/
theorem mul_zero_beq_zero {x : Float} (h : x.isFinite = true) : (x * 0.0 == 0.0) = true := by
  obtain ⟨s, hs⟩ : ∃ s, mul Format.binary64 x.toModel.unpack (.zero .positive) = .zero s :=
    exists_mul_zero Format.binary64 h
  show (Float.Model.pack (mul Format.binary64 x.toModel.unpack (.zero .positive))).unpack.beq
    (.zero .positive) = true
  rw [hs]
  cases s <;> rfl

end PlaneSketch.Binary64
