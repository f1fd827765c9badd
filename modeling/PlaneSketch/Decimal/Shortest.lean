import PlaneSketch.Decimal.Rounded

/-!
# The shortest decimal text

The fewest significant digits that read back as the number, without an exponent: a point stands
only before digits, and zeros fill the places down to the units or up to the first digit.

The decimals that read back as `m * 2 ^ q` form an interval around it, which reaches half way to
either neighbour and contains its ends when `m` is even. Of the decimals with `n` digits only the
two around the number need to be looked at: if any of them lies in the interval, so does one of
these two.
-/

namespace PlaneSketch.Decimal

/-- The interval of a positive number, in quarters of its last binary place. -/
structure Interval where
  low : Nat
  value : Nat
  high : Nat
  closed : Bool

/-- The lower neighbour of a power of two is only half a place away, unless the exponent is the
least one. -/
def interval (mantissa : Nat) (exponent : Int) : Interval where
  low := if mantissa = leadingBit ∧ exponent ≠ -1074 then 4 * mantissa - 1 else 4 * mantissa - 2
  value := 4 * mantissa
  high := 4 * mantissa + 2
  closed := mantissa % 2 = 0

/-- Whether the decimal `c * unit` lies in the interval stretched by `scale`. -/
def Interval.contains (i : Interval) (scale unit c : Nat) : Bool :=
  if i.closed then i.low * scale ≤ c * unit && c * unit ≤ i.high * scale
  else i.low * scale < c * unit && c * unit < i.high * scale

/-- The decimal of the interval on the grid of multiples of `10 ^ last` that is nearest to the
value, if there is one; a tie goes up. -/
def onGrid (i : Interval) (exponent last : Int) : Option Nat :=
  let (up, down) := powerRatio 2 (exponent - 2)
  let (coarse, fine) := powerRatio 10 last
  let scale := up * fine
  let unit := down * coarse
  let below := i.value * scale / unit
  match i.contains scale unit below, i.contains scale unit (below + 1) with
  | true, true =>
    if i.value * scale - below * unit < (below + 1) * unit - i.value * scale then some below
    else some (below + 1)
  | true, false => some below
  | false, true => some (below + 1)
  | false, false => none

/-- The first of the next `tries` grids, each ten times finer than the one before, that has a
decimal of the interval. -/
def firstGrid (i : Interval) (exponent : Int) : Nat → Int → Nat × Int
  | 0, last => (0, last)
  | tries + 1, last =>
    match onGrid i exponent last with
    | some digits => (digits, last)
    | none => firstGrid i exponent tries (last - 1)

/-- The shortest decimal of a positive number: the digits as an integer and the exponent of the
last one. Seventeen digits tell any two numbers apart. -/
def shortestDigits (mantissa : Nat) (exponent : Int) : Nat × Int :=
  let (num, den) := ratio mantissa exponent
  firstGrid (interval mantissa exponent) exponent 17 (decimalExponent num den)

/-- A decimal without an exponent and without zeros at the end of its fraction. -/
def positional (digits : Nat) (last : Int) : String :=
  if 0 ≤ last then
    toString (digits * Nat.pow 10 last.toNat)
  else
    let text := placed digits (-last).toNat
    String.ofList
      ((text.toList.reverse.dropWhile (· == '0')).dropWhile (· == '.')).reverse

def shortestText (x : Float) : String :=
  match Dyadic.ofFloat x with
  | .finite negative 0 _ => signed negative "0"
  | .finite negative mantissa exponent =>
    let (digits, last) := shortestDigits mantissa exponent
    signed negative (positional digits last)
  | special => specialText special

end PlaneSketch.Decimal
