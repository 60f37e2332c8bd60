/-!
# Double-precision numbers

A `Binary64` is the 64 bits of an IEEE 754 double.  `Binary64.view` reads them
as a sign, a whole significand and a power of two, as an infinity, or as not a
number.  All arithmetic goes through exact fractions of natural numbers and is
rounded once, to the nearest double and on a tie to the one whose significand
is even, so nothing here depends on the machine.

The magnitude of a double, its bits without the sign, grows with the value it
stands for, also across powers of two.  `ofFraction` uses this: a significand
that rounds up to the next power of two carries into the exponent by plain
addition, and a magnitude past the largest finite one is cut at infinity.
-/

namespace SeriesQuery

/-- A double, by its bits. -/
structure Binary64 where
  /-- The sign bit, eleven bits of exponent and fifty-two of fraction. -/
  bits : UInt64
deriving DecidableEq

namespace Binary64

/-! ## Reading the bits -/

/-- What a double stands for. -/
inductive View where
  /-- Not a number. -/
  | nan
  /-- An infinity of the given sign. -/
  | infinite (negative : Bool)
  /-- The number `m · 2^q`, negated if `negative`. -/
  | finite (negative : Bool) (m : Nat) (q : Int)
deriving DecidableEq

/-- The weight of the sign bit, `2^63`. -/
def signUnit : Nat := 9223372036854775808

/-- The weight of the last bit of the exponent, `2^52`, which is also the least
significand of a normal number. -/
def unit : Nat := 4503599627370496

/-- The bits without the sign. -/
def magnitude (x : Binary64) : Nat := x.bits.toNat % signUnit

/-- Whether the sign bit is set. -/
def isNegative (x : Binary64) : Bool := decide (signUnit ≤ x.bits.toNat)

/-- The magnitude of the infinities. -/
def infinityMagnitude : Nat := 2047 * unit

/-- The least power of two a significand is counted in. -/
def leastPlace : Int := -1074

/-- Reads the bits. -/
def view (x : Binary64) : View :=
  let exponent : Nat := x.magnitude / unit
  let fraction : Nat := x.magnitude % unit
  if exponent = 2047 then
    if fraction = 0 then .infinite x.isNegative else .nan
  else if exponent = 0 then .finite x.isNegative fraction leastPlace
  else .finite x.isNegative (unit + fraction) (exponent + leastPlace - 1)

/-- The double of a sign and a magnitude. -/
def pack (negative : Bool) (magnitude : Nat) : Binary64 :=
  ⟨UInt64.ofNat (if negative then signUnit + magnitude else magnitude)⟩

/-- Zero, of either sign. -/
def zero (negative : Bool) : Binary64 := pack negative 0

/-- Infinity, of either sign. -/
def infinity (negative : Bool) : Binary64 := pack negative infinityMagnitude

/-- The quiet number that is none, of either sign. -/
def nan (negative : Bool) : Binary64 := pack negative (infinityMagnitude + unit / 2)

/-- Neither infinite nor without value. -/
def isFinite (x : Binary64) : Bool := decide (x.magnitude < infinityMagnitude)

/-! ## Rounding a fraction -/

/-- The fraction `num / den · 2^k`. -/
def scale (num den : Nat) (k : Int) : Nat × Nat :=
  if 0 ≤ k then (num * Nat.pow 2 k.toNat, den) else (num, den * Nat.pow 2 (-k).toNat)

/-- The whole number nearest `num / den`; a half goes to the even neighbour. -/
def roundHalfEven (num den : Nat) : Nat :=
  let floor := num / den
  let rest := num % den
  if 2 * rest < den then floor
  else if den < 2 * rest then floor + 1
  else floor + floor % 2

/-- The whole part of the binary logarithm of the positive fraction `num / den`. -/
def floorLog (num den : Nat) : Int :=
  let guess := (Nat.log2 num : Int) - Nat.log2 den
  let (n, d) := scale num den (-guess)
  if d ≤ n then guess else guess - 1

/-- Rounds the positive fraction `num / den` to a significand of at most
`width` bits over the power of two it is counted in, which is `least` or
more.  The significand may come out as `2^width`. -/
def roundTo (width : Nat) (least : Int) (num den : Nat) : Nat × Int :=
  let place := max (floorLog num den - width + 1) least
  let (n, d) := scale num den (-place)
  (roundHalfEven n d, place)

/-- The double nearest the fraction `num / den`, negated if `negative`. -/
def ofFraction (negative : Bool) (num den : Nat) : Binary64 :=
  if num = 0 then zero negative
  else
    let (m, q) := roundTo 53 leastPlace num den
    pack negative (min ((q - leastPlace).toNat * unit + m) infinityMagnitude)

/-- The double nearest `m · 2^q`. -/
def ofScaled (negative : Bool) (m : Nat) (q : Int) : Binary64 :=
  let (n, d) := scale m 1 q
  ofFraction negative n d

/-- The double nearest a whole number; zero is positive. -/
def ofInt (n : Int) : Binary64 := ofFraction (decide (n < 0)) n.natAbs 1

/-- The double nearest `significand · 10^exponent`.  An exponent that puts the
number far out of range is not worked out: the result is infinite from
`10^400` on and zero below `10^-400`. -/
def ofDecimal (negative : Bool) (significand : Nat) (exponent : Int) : Binary64 :=
  if significand = 0 then zero negative
  else
    let leading := exponent + (Nat.toDigits 10 significand).length
    if 400 < leading then infinity negative
    else if leading < -400 then zero negative
    else if 0 ≤ exponent then ofFraction negative (significand * Nat.pow 10 exponent.toNat) 1
    else ofFraction negative significand (Nat.pow 10 (-exponent).toNat)

/-! ## Arithmetic -/

/-- The product, rounded once. -/
def mul (x y : Binary64) : Binary64 :=
  match x.view, y.view with
  | .nan, _ => nan false
  | _, .nan => nan false
  | .infinite s, .infinite t => infinity (s != t)
  | .infinite s, .finite t m _ => if m = 0 then nan false else infinity (s != t)
  | .finite s m _, .infinite t => if m = 0 then nan false else infinity (s != t)
  | .finite s m q, .finite t n r => ofScaled (s != t) (m * n) (q + r)

/-- The quotient, rounded once. -/
def div (x y : Binary64) : Binary64 :=
  match x.view, y.view with
  | .nan, _ => nan false
  | _, .nan => nan false
  | .infinite _, .infinite _ => nan false
  | .infinite s, .finite t _ _ => infinity (s != t)
  | .finite s _ _, .infinite t => zero (s != t)
  | .finite s m q, .finite t n r =>
    if n = 0 then if m = 0 then nan false else infinity (s != t)
    else
      let (num, den) := scale m n (q - r)
      ofFraction (s != t) num den

/-- The whole number next to zero, cut at the bounds of 64 signed bits; what is
not a number counts as zero. -/
def toInt64 (x : Binary64) : Int64 :=
  match x.view with
  | .nan => 0
  | .infinite negative => if negative then Int64.minValue else Int64.maxValue
  | .finite negative m q =>
    let (n, d) := scale m 1 q
    let whole : Int := (n / d : Nat)
    let signed := if negative then -whole else whole
    Int64.ofInt (max (-9223372036854775808) (min 9223372036854775807 signed))

/-! ## Narrower formats -/

/-- The double that stands for a single-precision rounding of `x`. -/
def toSingle (x : Binary64) : Binary64 :=
  match x.view with
  | .finite negative m q =>
    if m = 0 then x
    else
      let (n, d) := scale m 1 q
      let (m', q') := roundTo 24 (-149) n d
      if 128 ≤ floorLog m' 1 + q' then infinity negative else ofScaled negative m' q'
  | _ => x

/-- The double that sixteen bits of a half-precision number stand for. -/
def ofHalf (bits : Nat) : Binary64 :=
  let negative := decide (32768 ≤ bits % 65536)
  let exponent : Nat := bits % 32768 / 1024
  let fraction := bits % 1024
  if exponent = 31 then if fraction = 0 then infinity negative else nan negative
  else if exponent = 0 then ofScaled negative fraction (-24)
  else ofScaled negative (1024 + fraction) (exponent - 25)

/-- Multiplies `result` by `base^n`, squaring the base once per binary digit of
`n`, every product rounded.  `fuel` bounds the digits. -/
def powBySquaring : (fuel n : Nat) → (base result : Binary64) → Binary64
  | 0, _, _, result => result
  | fuel + 1, n, base, result =>
    let result := if n % 2 = 1 then result.mul base else result
    if n / 2 = 0 then result else powBySquaring fuel (n / 2) (base.mul base) result

/-- The power `10^scale` by repeated squaring; a negative exponent gives the
reciprocal of the positive one. -/
def powTen (scale : Int) : Binary64 :=
  let power := powBySquaring (scale.natAbs + 1) scale.natAbs (ofInt 10) (ofInt 1)
  if scale < 0 then (ofInt 1).div power else power

end Binary64

end SeriesQuery
