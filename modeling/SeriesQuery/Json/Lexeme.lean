import SeriesQuery.Number.Binary64
import SeriesQuery.Number.Digits

/-!
# JSON numbers

The grammar of JSON numbers: an optional minus sign, a whole part without leading
zeros, an optional point with digits and an optional exponent with digits.

A number is out of range if it is read into a double through a significand of 64
bits and a power of ten, and the product is infinite.  Digits that do not fit the
significand count for the power if they stand before the point, and are dropped
behind it.
-/

namespace SeriesQuery.Lexeme

/-- The parts of a number. -/
structure Parts where
  /-- Whether there is a minus sign. -/
  negative : Bool
  /-- The digits before the point. -/
  whole : List Char
  /-- The digits behind the point, if there is one. -/
  fraction : Option (List Char)
  /-- Whether the exponent is negative and its digits, if there is one. -/
  exponent : Option (Bool × List Char)

/-- Reads one or more digits. -/
def digits? (cs : List Char) : Option (List Char × List Char) :=
  let (ds, rest) := Digits.span cs
  if ds = [] then none else some (ds, rest)

/-- Reads digits that do not start with a zero, or a lone zero. -/
def whole? (cs : List Char) : Option (List Char × List Char) :=
  match digits? cs with
  | some ('0' :: _ :: _, _) => none
  | found => found

/-- Reads the digits behind a point, if there is one. -/
def fraction? : List Char → Option (Option (List Char) × List Char)
  | '.' :: cs => (digits? cs).map fun (ds, rest) => (some ds, rest)
  | cs => some (none, cs)

/-- Reads an exponent, if there is one. -/
def exponent? : List Char → Option (Option (Bool × List Char) × List Char)
  | c :: cs =>
    if c = 'e' ∨ c = 'E' then
      let (negative, cs) := Digits.splitSign cs
      (digits? cs).map fun (ds, rest) => (some (negative, ds), rest)
    else some (none, c :: cs)
  | [] => some (none, [])

/-- Reads a number and the rest of the text. -/
def read? (cs : List Char) : Option (Parts × List Char) := do
  let (negative, cs) :=
    match cs with
    | '-' :: cs => (true, cs)
    | cs => (false, cs)
  let (whole, cs) ← whole? cs
  let (fraction, cs) ← fraction? cs
  let (exponent, cs) ← exponent? cs
  some (⟨negative, whole, fraction, exponent⟩, cs)

/-- Numbers from here on exceed 64 bits. -/
def wordLimit : Nat := 18446744073709551616

/-- Appends digits to a significand as long as it fits 64 bits: the significand,
and how many digits are left. -/
def fitDigits (n : Nat) : List Char → Nat × Nat
  | [] => (n, 0)
  | c :: cs =>
    let longer := n * 10 + (c.toNat - '0'.toNat)
    if longer < wordLimit then fitDigits longer cs else (n, cs.length + 1)

namespace Parts

/-- The number as it is written, with `e` for the exponent and no plus sign. -/
def render (p : Parts) : List Char :=
  let sign := if p.negative then ['-'] else []
  let fraction := (p.fraction.map ('.' :: ·)).getD []
  let exponent := (p.exponent.map fun e => 'e' :: (if e.1 then '-' :: e.2 else e.2)).getD []
  sign ++ p.whole ++ fraction ++ exponent

/-- The natural number, if there is no sign, point or exponent and it fits 64
bits. -/
def natural? (p : Parts) : Option UInt64 :=
  if p.negative || p.fraction.isSome || p.exponent.isSome then none
  else
    let n := Digits.value p.whole
    if n < wordLimit then some (UInt64.ofNat n) else none

/-- The significand of 64 bits and the power of ten without the exponent. -/
def scaled (p : Parts) : Nat × Int :=
  let (n, left) := fitDigits 0 p.whole
  let fraction := p.fraction.getD []
  let (m, dropped) := fitDigits n fraction
  (m, left - (fraction.length - dropped : Nat))

/-- The greatest exponent that is worked out. -/
def maxExponent : Nat := 2147483647

/-- Whether the number is too great for a double. -/
def outOfRange (p : Parts) : Bool :=
  let (n, power) := p.scaled
  let exponent : Int :=
    match p.exponent with
    | none => 0
    | some (negative, ds) => if negative then -(Digits.value ds : Int) else Digits.value ds
  let isWhole := p.fraction.isNone && p.exponent.isNone && n == Digits.value p.whole
  if n = 0 ∨ isWhole then false
  else if (maxExponent : Int) < exponent then true
  else
    let total := power + exponent
    if total < 0 then false
    else if 308 < total then true
    else !((Binary64.ofInt n).mul (Binary64.ofDecimal false 1 total)).isFinite

end Parts

end SeriesQuery.Lexeme
