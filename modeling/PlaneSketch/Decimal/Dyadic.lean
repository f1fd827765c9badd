/-!
# Binary64 values as exact fractions

A finite binary64 number is an integer times a power of two. The decimal texts of a number, which
messages and the report show, are computed from that form in exact integer arithmetic.
-/

namespace PlaneSketch.Decimal

inductive Dyadic where
  | undefined
  | infinite (negative : Bool)
  /-- `mantissa * 2 ^ exponent`, or its negative; a zero keeps its sign. -/
  | finite (negative : Bool) (mantissa : Nat) (exponent : Int)
deriving DecidableEq

/-- The leading bit of a mantissa, which the encoding of most numbers leaves out: `2 ^ 52`. -/
def leadingBit : Nat := 0x10000000000000

/-- Reads the sign, the eleven bits of the exponent and the 52 bits of the fraction. The least
exponent field marks the numbers without a leading bit. -/
def Dyadic.ofFloat (x : Float) : Dyadic :=
  let bits := x.toBits.toNat
  let negative := bits / leadingBit / 2048 == 1
  let field := bits / leadingBit % 2048
  let fraction := bits % leadingBit
  if field = 2047 then
    if fraction = 0 then .infinite negative else .undefined
  else if field = 0 then
    .finite negative fraction (-1074)
  else
    .finite negative (leadingBit + fraction) ((field : Int) - 1075)

/-- The power `base ^ e` for an exponent of either sign, as numerator and denominator. -/
def powerRatio (base : Nat) (e : Int) : Nat × Nat :=
  (base.pow e.toNat, base.pow (-e).toNat)

/-- The nearest integer to `num / den`; halfway between two, the even one. -/
def roundQuotient (num den : Nat) : Nat :=
  let quotient := num / den
  let twice := 2 * (num % den)
  if twice < den then quotient
  else if den < twice then quotient + 1
  else quotient + quotient % 2

def digitCount (n : Nat) : Nat :=
  (Nat.toDigits 10 n).length

/-- How often a fraction below one can be multiplied by ten and stay below one, at most `bound`
times. -/
def leadingZeros : Nat → Nat → Nat → Nat
  | 0, _, _ => 0
  | bound + 1, num, den => if 10 * num < den then leadingZeros bound (10 * num) den + 1 else 0

/-- The exponent `e` with `10 ^ e ≤ num / den < 10 ^ (e + 1)`, for a positive fraction. -/
def decimalExponent (num den : Nat) : Int :=
  if num < den then -(leadingZeros (Nat.log2 den + 1) num den : Int) - 1
  else (digitCount (num / den) : Int) - 1

/-- The fraction `mantissa * 2 ^ exponent` as numerator and denominator. -/
def ratio (mantissa : Nat) (exponent : Int) : Nat × Nat :=
  let (up, down) := powerRatio 2 exponent
  (mantissa * up, down)

end PlaneSketch.Decimal
