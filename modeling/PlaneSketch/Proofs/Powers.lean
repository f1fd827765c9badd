import PlaneSketch.LeastSquares.LevenbergMarquardt
import PlaneSketch.Proofs.Signs

/-!
# Powers of two

A power of two has one mantissa and some exponent, and a product of two of them is exact as long as
binary64 has the exponent. So the factor of a raise doubles with each raise, up to infinity.
-/

namespace PlaneSketch

namespace Binary64

open Float.Model (Format UnpackedFloat)
open Float.Model.UnpackedFloat

/-- The power of two with this exponent of the last mantissa bit. -/
def power (e : Int) : UnpackedFloat := .finite .positive (2 ^ 52) e (by decide)

theorem shift_exact (m n : Nat) :
    (⟨m * 2 ^ n, false, false⟩ : ExtendedMantissa) >>> n = ⟨m, false, false⟩ := by
  induction n generalizing m with
  | zero => simp [HShiftRight.hShiftRight, Nat.repeat]
  | succ n ih =>
    have hrest : m * 2 ^ (n + 1) = m * 2 * 2 ^ n := by
      rw [Nat.pow_succ, Nat.mul_comm (2 ^ n), Nat.mul_assoc]
    show ((⟨m * 2 ^ (n + 1), false, false⟩ : ExtendedMantissa) >>> n).shiftRightOne = _
    rw [hrest, ih]
    simp [ExtendedMantissa.shiftRightOne]

/-- The exponent that a power of two is rounded to is its own. -/
theorem shiftToTargetExponent_power (n : Nat) {e : Int} (he : -1074 ≤ e) :
    shiftToTargetExponent Format.binary64 (2 ^ 52 * 2 ^ n) (e - n) .exact =
      (⟨2 ^ 52, false, false⟩, e) := by
  have htarget : Format.binary64.targetExponent
      (Float.Model.totalExponent (2 ^ 52 * 2 ^ n) (e - n)) = e := by
    rw [← Nat.pow_add]
    simp only [Format.targetExponent, Float.Model.totalExponent, Nat.log2_two_pow,
      Format.mantissaBits, Format.minExponent]
    norm_num
    omega
  unfold shiftToTargetExponent
  rw [htarget]
  have hamount : (e - (e - (n : Int))).toNat = n := by omega
  simp only [shiftToExponent, hamount, ExtendedMantissa.ofMantissaAndAccuracy, shift_exact]
  rw [Int.sub_add_cancel]

theorem roundWithAccuracy_power (n : Nat) {e : Int} (he : -1074 ≤ e) :
    roundWithAccuracy Format.binary64 .positive (2 ^ 52 * 2 ^ n) (e - n) .exact = power e := by
  have hagain := shiftToTargetExponent_power 0 he
  rw [Nat.pow_zero, Nat.mul_one, Int.natCast_zero, Int.sub_zero] at hagain
  unfold roundWithAccuracy
  -- rounding shifts once more, for the carry that a power of two does not have
  rw [shiftToTargetExponent_power n he]
  have hrounded : (⟨2 ^ 52, false, false⟩ : ExtendedMantissa).roundedMantissa = 2 ^ 52 := rfl
  dsimp only
  rw [hrounded, hagain]
  rfl

theorem pack_power {e : Int} (hmost : e ≤ 971) :
    UnpackedFloat.pack Format.binary64 (power e) =
      packComponents Format.binary64 .positive (BitVec.ofNat 11 (e + 1075).toNat) 0 := by
  have hlog : (2 ^ 52 : Nat).log2 + 1 = Format.binary64.mantissaBits := by decide
  have hbiased : e + (Format.binary64.exponentBias : Int) + (52 : Nat) = e + 1075 := by
    have hbias : (Format.binary64.exponentBias : Int) = 1023 := rfl
    omega
  have hfits : ¬2 ^ 11 ≤ (e + 1075).toNat + 1 := by omega
  unfold UnpackedFloat.pack power
  dsimp only
  rw [if_pos hlog, hbiased, if_neg hfits]
  rfl

theorem unpack_pack_power {e : Int} (hleast : -1074 ≤ e) (hmost : e ≤ 971) :
    (Float.Model.pack (power e)).unpack = power e := by
  have hexponent : (BitVec.ofNat 11 (e + 1075).toNat).toNat = (e + 1075).toNat := by
    rw [BitVec.toNat_ofNat, Nat.mod_eq_of_lt (by omega)]
  have hne (b : BitVec 11) (h : (e + 1075).toNat ≠ b.toNat) :
      BitVec.ofNat 11 (e + 1075).toNat ≠ b :=
    fun heq => h (hexponent.symm.trans (congrArg BitVec.toNat heq))
  have hspecial := hne (-1#11) (show (e + 1075).toNat ≠ 2047 by omega)
  have hsmall := hne 0#11 (show (e + 1075).toNat ≠ 0 by omega)
  have hbias : (Format.binary64.exponentBias : Int) = 1023 := rfl
  show unpack Format.binary64 (UnpackedFloat.pack Format.binary64 (power e)) = power e
  rw [pack_power hmost]
  simp only [unpack, unpackExponent_packComponents, unpackMantissa_packComponents,
    unpackSign_packComponents, Sign.ofBitVec_toBitVec]
  rw [if_neg hspecial, if_neg hsmall, power]
  congr 1
  rw [hexponent, hbias]
  omega

/-- Twice a power of two is the next one. -/
theorem mul_two_power {e : Int} (hleast : -1074 ≤ e) (hmost : e ≤ 971) :
    Float.ofModel (Float.Model.pack (power e)) * 2.0 =
      Float.ofModel (Float.Model.pack (power (e + 1))) := by
  have htwo : (2.0 : Float).toModel.unpack = power (-51) := rfl
  have hproduct : mul Format.binary64 (power e) (power (-51)) = power (e + 1) := by
    have hround := roundWithAccuracy_power 52 (e := e + 1) (by omega)
    have hexponent : e + 1 - (52 : Nat) = e + -51 := by omega
    rw [hexponent] at hround
    exact hround
  show Float.ofModel (Float.Model.pack (mul Format.binary64 (Float.Model.pack (power e)).unpack
    (2.0 : Float).toModel.unpack)) = _
  rw [unpack_pack_power hleast hmost, htwo, hproduct]

theorem mul_finite (spec : Format) (s t : Sign) (m n : Nat) (e f : Int) (hm : 0 < m) (hn : 0 < n) :
    mul spec (.finite s m e hm) (.finite t n f hn) =
      roundWithAccuracy spec (s * t) (m * n) (e + f) .exact := rfl

/-- A power of two as a natural number. -/
theorem ofNat_power {k : Nat} (h : 53 ≤ k) :
    Float.ofNat (1 <<< k) = Float.ofModel (Float.Model.pack (power (k - 52))) := by
  have hlarge : ¬(1 <<< k < 2 ^ 53 ∧ 0 ≤ 22) := by
    rw [Nat.one_shiftLeft]
    exact fun hsmall => Nat.not_lt.mpr (Nat.pow_le_pow_right (by decide) h) hsmall.1
  have hpositive : ¬1 <<< k = 0 := by
    rw [Nat.one_shiftLeft]
    exact (Nat.two_pow_pos k).ne'
  have hrounded : UnpackedFloat.ofScientific Format.binary64 (1 <<< k) 0 = power (k - 52) := by
    have hround := roundWithAccuracy_power (k + 1) (e := k - 52) (by omega)
    have hmantissa : (1 <<< k) <<< Format.binary64.mantissaBits * 10 ^ (0 : Int).toNat =
        2 ^ 52 * 2 ^ (k + 1) := by
      have hbits : Format.binary64.mantissaBits = 53 := rfl
      rw [hbits, ← Nat.pow_add, Nat.shiftLeft_eq, Nat.one_shiftLeft, ← Nat.pow_add]
      simp only [Int.toNat_zero, Nat.pow_zero, Nat.mul_one]
      congr 1
      omega
    have hexponent : -((Format.binary64.mantissaBits : Nat) : Int) + 0 =
        (k : Int) - 52 - ((k + 1 : Nat) : Int) := by
      have hbits : Format.binary64.mantissaBits = 53 := rfl
      omega
    unfold UnpackedFloat.ofScientific
    rw [dif_neg hpositive, if_neg (by decide), if_neg, if_pos (by decide), mul_finite, hmantissa,
      hexponent]
    · exact hround
    · show ¬(0 : Int) < -((2048 : Int) + ((1 <<< k).log2 : Nat))
      omega
  show Float.ofScientific (1 <<< k) false 0 = _
  unfold Float.ofScientific
  rw [dif_neg hlarge]
  show Float.ofModel (Float.Model.pack (UnpackedFloat.ofScientific Format.binary64 (1 <<< k) 0)) = _
  rw [hrounded]

end Binary64

/-! ### The factor of a raise -/

theorem dampingGrowth_eq_power {raises : Nat} (h : raises < 1023) :
    dampingGrowth raises = Float.ofModel (Float.Model.pack (Binary64.power (raises - 51))) := by
  rw [dampingGrowth, if_pos h]
  by_cases hlarge : 53 ≤ raises + 1
  · have hexponent : ((raises + 1 : Nat) : Int) - 52 = raises - 51 := by omega
    rw [Binary64.ofNat_power hlarge, hexponent]
  · -- a number of at most 53 bits is not rounded, which is a branch of its own
    have hsmall : ∀ raises < 52, Float.ofNat (1 <<< (raises + 1)) =
        Float.ofModel (Float.Model.pack (Binary64.power (raises - 51))) := by
      decide +kernel
    exact hsmall raises (by omega)

theorem dampingGrowth_zero : dampingGrowth 0 = 2.0 := by decide +kernel

/-- The factor doubles with each raise, also once it is infinite. -/
theorem dampingGrowth_succ (raises : Nat) :
    dampingGrowth raises * 2.0 = dampingGrowth (raises + 1) := by
  have hoverflow : Float.ofModel (Float.Model.pack (Binary64.power 972)) = infinite64 := by
    decide +kernel
  rcases Nat.lt_trichotomy raises 1022 with hsmall | rfl | hlarge
  · have hexponent : ((raises + 1 : Nat) : Int) - 51 = (raises : Int) - 51 + 1 := by omega
    rw [dampingGrowth_eq_power (by omega), dampingGrowth_eq_power (by omega), hexponent,
      Binary64.mul_two_power (by omega) (by omega)]
  · rw [dampingGrowth_eq_power (by omega), Binary64.mul_two_power (by omega) (by omega)]
    exact hoverflow
  · have hinfinite : dampingGrowth raises = infinite64 := if_neg (by omega)
    have hnext : dampingGrowth (raises + 1) = infinite64 := if_neg (by omega)
    have hdouble : infinite64 * 2.0 = infinite64 := by decide +kernel
    rw [hinfinite, hnext, hdouble]

end PlaneSketch
