/-!
# Scalars

The numbers a sketch is drawn in. Everything that measures, solves or diagnoses is written once over
a `Scalar`: programs run it at binary64 (`PlaneSketch.Binary64`), and a statement "in exact
arithmetic" is about the same definitions at the real numbers.

Only comparison and finiteness are asked as questions, so a carrier with values that compare with
nothing (a NaN) is a scalar too, and every branch below says which way such a value goes.
-/

namespace PlaneSketch

class Scalar (α : Type) extends Add α, Sub α, Mul α, Div α, Neg α, LT α, LE α, OfScientific α where
  ltDecidable : DecidableRel (fun a b : α => a < b)
  leDecidable : DecidableRel (fun a b : α => a ≤ b)
  sqrt : α → α
  abs : α → α
  /-- The angle of the vector with second coordinate `y` and first coordinate `x`, in radians. -/
  atan2 (y x : α) : α
  degreesPerRadian : α
  /-- Whether the value is a number: neither infinite nor undefined. -/
  isFinite : α → Bool

/-- How numbers are written in messages. -/
class NumberText (α : Type) where
  /-- The fewest digits that read back as the number, without an exponent. -/
  shortest : α → String
  fixed (places : Nat) : α → String
  /-- One digit before the point, a fixed number after it, and a power of ten. -/
  scientific (places : Nat) : α → String

namespace Scalar

variable {α : Type} [Scalar α]

instance : DecidableLT α := ltDecidable

instance : DecidableLE α := leDecidable

/-- The larger of two numbers; beside an undefined value, the other one. -/
def larger (a b : α) : α :=
  if b ≤ a then a else if a ≤ b then b else if a ≤ a then a else b

/-- The smaller of two numbers; beside an undefined value, the other one. -/
def smaller (a b : α) : α :=
  if a ≤ b then a else if b ≤ a then b else if a ≤ a then a else b

/-- The value moved into the interval from `lo` to `hi`; an undefined value stays. -/
def clamp (lo hi a : α) : α :=
  let raised := if a < lo then lo else a
  if hi < raised then hi else raised

/-- The sum of a list, from left to right. The sum of nothing is negative zero, the only number
that addition leaves alone whatever the sign of the other term. -/
def sum (xs : List α) : α :=
  xs.foldl (· + ·) (-(0.0 : α))

/-- Adds eight terms at a time to eight running sums, which is how a processor adds long lists; the
running sums are joined, and the fewer than eight terms that are left come last. In exact arithmetic
this is the sum of all; at binary64 the order decides the rounding. -/
def sumByEights (s₀ s₁ s₂ s₃ s₄ s₅ s₆ s₇ : α) : List α → α
  | t₀ :: t₁ :: t₂ :: t₃ :: t₄ :: t₅ :: t₆ :: t₇ :: rest =>
    sumByEights (s₀ + t₀) (s₁ + t₁) (s₂ + t₂) (s₃ + t₃) (s₄ + t₄) (s₅ + t₅) (s₆ + t₆) (s₇ + t₇) rest
  | rest => rest.foldl (· + ·) (0.0 + (s₀ + s₄) + (s₁ + s₅) + (s₂ + s₆) + (s₃ + s₇))

def dot (xs ys : List α) : α :=
  sumByEights 0.0 0.0 0.0 0.0 0.0 0.0 0.0 0.0 (List.zipWith (· * ·) xs ys)

def normSquared (xs : List α) : α :=
  dot xs xs

def norm (xs : List α) : α :=
  sqrt (normSquared xs)

/-- The largest entry, scanned from left to right: the best so far stays while it is at least the
next entry. Zero for an empty list. -/
def peak : List α → α
  | [] => 0.0
  | x :: xs => xs.foldl (fun best y => if y ≤ best then best else y) x

/-- The largest absolute value of an entry; zero for an empty list. -/
def peakAbs (xs : List α) : α :=
  peak (xs.map abs)

def toDegrees (radians : α) : α :=
  radians * degreesPerRadian

end Scalar

end PlaneSketch
