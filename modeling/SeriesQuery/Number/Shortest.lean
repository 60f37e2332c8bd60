import SeriesQuery.Number.Binary64
import SeriesQuery.Number.Digits

/-!
# The shortest decimal of a double

Many decimals are rounded to one double.  `Shortest.ofScaled` finds one with
the fewest digits, and among those the one nearest the double itself.

The reals that are rounded to `m · 2^q` form an interval around it, whose ends
belong to it exactly when `m` is even.  Below a power of two the grid of doubles
is twice as fine, so there the interval reaches half as far down.  A grid of
decimals with a given number of digits meets the interval if and only if one of
the double's two neighbours on that grid does, so it is enough to look at those
two for one digit, two digits and so on.  Seventeen digits always do.
-/

namespace SeriesQuery

/-- The decimal `significand · 10^exponent`. -/
structure Shortest where
  significand : Nat
  /-- The power of ten they are counted in. -/
  exponent : Int
deriving DecidableEq

namespace Shortest

/-- The reals that are rounded to a double, as whole numbers over one
denominator. -/
structure Interval where
  /-- The double itself. -/
  center : Nat
  /-- The lower end. -/
  low : Nat
  /-- The upper end. -/
  high : Nat
  /-- The denominator of all three. -/
  den : Nat
  /-- Whether the ends belong to the interval. -/
  closed : Bool

/-- The interval of the double `m · 2^q`. -/
def interval (m : Nat) (q : Int) : Interval :=
  let (unit, den) := Binary64.scale 1 1 (q - 2)
  let below := if m = Binary64.unit ∧ Binary64.leastPlace < q then 1 else 2
  ⟨4 * m * unit, (4 * m - below) * unit, (4 * m + 2) * unit, den, m % 2 == 0⟩

/-- Whether the fraction `num / den` lies in the interval. -/
def Interval.holds (i : Interval) (num den : Nat) : Bool :=
  let x := num * i.den
  let low := i.low * den
  let high := i.high * den
  if i.closed then low ≤ x && x ≤ high else low < x && x < high

/-- The fraction `n · 10^k`. -/
def scaleTen (n : Nat) (k : Int) : Nat × Nat :=
  if 0 ≤ k then (n * Nat.pow 10 k.toNat, 1) else (n, Nat.pow 10 (-k).toNat)

/-- The whole part of the decimal logarithm of the positive fraction
`num / den`.  The binary logarithm times a little less than `log 2` is off by at
most one. -/
def floorLogTen (num den : Nat) : Int :=
  let guess := (Nat.log2 num - Nat.log2 den : Int) * 30103 / 100000
  let atLeast (k : Int) : Bool :=
    let (p, r) := scaleTen 1 k
    den * p ≤ num * r
  if atLeast (guess + 1) then guess + 1
  else if atLeast guess then guess
  else guess - 1

/-- Strips the zeros at the end of a decimal.  `fuel` bounds their number. -/
def normalize : (fuel : Nat) → Shortest → Shortest
  | 0, d => d
  | fuel + 1, d =>
    if d.significand ≠ 0 ∧ d.significand % 10 = 0 then
      normalize fuel ⟨d.significand / 10, d.exponent + 1⟩
    else d

/-- The neighbours of the centre on the grid of multiples of `10^place`, and
the one of them to take if any lies in the interval: the nearer one if both do. -/
def candidate? (i : Interval) (place : Int) : Option Shortest :=
  let (p, r) := scaleTen 1 place
  let below := i.center * r / (i.den * p)
  let inside (n : Nat) : Bool := i.holds (n * p) r
  let doubled := 2 * i.center * r
  let middle := (2 * below + 1) * (i.den * p)
  match inside below, inside (below + 1) with
  | false, false => none
  | true, false => some ⟨below, place⟩
  | false, true => some ⟨below + 1, place⟩
  | true, true => if doubled < middle then some ⟨below, place⟩ else some ⟨below + 1, place⟩

/-- The first grid with a hit, from the coarsest on. -/
def search (i : Interval) (leading : Int) : (digits fuel : Nat) → Shortest
  | digits, 0 => ⟨i.center / i.den, leading - digits⟩
  | digits, fuel + 1 =>
    match candidate? i (leading + 1 - digits) with
    | some d => d
    | none => search i leading (digits + 1) fuel

/-- The shortest decimal that is rounded to the positive double `m · 2^q`, and
of several the nearest.  It does not end in a zero. -/
def ofScaled (m : Nat) (q : Int) : Shortest :=
  if m = 0 then ⟨0, 0⟩
  else
    let i := interval m q
    normalize 20 (search i (floorLogTen i.center i.den) 1 17)

end Shortest

end SeriesQuery
