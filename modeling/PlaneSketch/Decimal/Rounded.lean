import PlaneSketch.Decimal.Dyadic

/-!
# Rounded decimal texts

Texts with a given number of decimal places, as suggestions show sizes (`dimensions`, `angles`), and
texts with a power of ten and a given number of digits, as results and reports show errors
(`solve_inner`, `render`). Both round the exact binary value once, and a tie goes to the even digit.
-/

namespace PlaneSketch.Decimal

/-- The sign in front of a magnitude; a negative zero keeps it. -/
def signed (negative : Bool) (magnitude : String) : String :=
  if negative then "-" ++ magnitude else magnitude

/-- The texts of values that are no numbers. -/
def specialText : Dyadic → String
  | .infinite negative => signed negative "inf"
  | _ => "NaN"

/-- The decimal `digits / 10 ^ places` written with exactly `places` decimal places. -/
def placed (digits places : Nat) : String :=
  if places = 0 then
    toString digits
  else
    let unit := Nat.pow 10 places
    let whole := digits / unit
    let part := toString (digits % unit)
    toString whole ++ "." ++ String.ofList (List.replicate (places - part.length) '0') ++ part

/-- The number with `places` decimal places. -/
def fixedText (places : Nat) (x : Float) : String :=
  match Dyadic.ofFloat x with
  | .finite negative mantissa exponent =>
    let (num, den) := ratio mantissa exponent
    signed negative (placed (roundQuotient (num * Nat.pow 10 places) den) places)
  | special => specialText special

/-- A positive fraction rounded to `count` significant digits: the digits as an integer and the
exponent of the last one. A carry into a new digit drops the last digit, which is a zero. -/
def significant (count num den : Nat) : Nat × Int :=
  let last := decimalExponent num den - (count - 1 : Nat)
  let (up, down) := powerRatio 10 last
  let digits := roundQuotient (num * down) (den * up)
  if digits = Nat.pow 10 count then (digits / 10, last + 1) else (digits, last)

/-- The number with one digit before the point, `places` after it, and the power of ten; the
exponent has no sign when it is not negative and no padding. -/
def scientificText (places : Nat) (x : Float) : String :=
  match Dyadic.ofFloat x with
  | .finite negative 0 _ => signed negative (placed 0 places ++ "e0")
  | .finite negative mantissa exponent =>
    let (num, den) := ratio mantissa exponent
    let (digits, last) := significant (places + 1) num den
    signed negative (placed digits places ++ "e" ++ toString (last + places))
  | special => specialText special

/-- The number rounded to `count` significant decimal digits and read back. -/
def roundSignificant (count : Nat) (x : Float) : Float :=
  match Dyadic.ofFloat x with
  | .finite _ 0 _ => x
  | .finite negative mantissa exponent =>
    let (num, den) := ratio mantissa exponent
    let (digits, last) := significant count num den
    let (up, _) := powerRatio 10 last
    let magnitude := Float.ofScientific (digits * up) true (-last).toNat
    if negative then -magnitude else magnitude
  | _ => x

end PlaneSketch.Decimal
