import SeriesQuery.Number.Binary64
import SeriesQuery.Number.Digits

/-!
# Reading doubles

A numeral is an optional sign and then digits with an optional point among or
around them, at least one digit in all, and an optional exponent; or one of the
words `inf`, `infinity` and `nan`, in any case.  Blanks are no part of a numeral.
The double nearest its value is the result.
-/

namespace SeriesQuery.Numeral

/-- A text in lower case, ASCII letters only. -/
def lower (cs : List Char) : List Char := cs.map Char.toLower

/-- Reads an exponent, `e` or `E`, an optional sign and digits, to the end of
the text; the empty text is the exponent zero. -/
def readExponent? : List Char → Option Int
  | [] => some 0
  | c :: cs => if c = 'e' ∨ c = 'E' then Digits.readInt? cs else none

/-- Reads digits with an optional point and exponent as `(significand, exponent)`,
which stands for `significand · 10^exponent`. -/
def readDecimal? (cs : List Char) : Option (Nat × Int) :=
  let (whole, rest) := Digits.span cs
  let (fraction, rest) :=
    match rest with
    | '.' :: rest => Digits.span rest
    | rest => ([], rest)
  if whole = [] ∧ fraction = [] then none
  else
    (readExponent? rest).map fun exponent =>
      (Digits.value (whole ++ fraction), exponent - fraction.length)

/-- Reads a numeral. -/
def read? (cs : List Char) : Option Binary64 :=
  let (negative, body) := Digits.splitSign cs
  let word := lower body
  if word = "inf".toList ∨ word = "infinity".toList then some (Binary64.infinity negative)
  else if word = "nan".toList then some (Binary64.nan negative)
  else
    (readDecimal? body).map fun (significand, exponent) =>
      Binary64.ofDecimal negative significand exponent

end SeriesQuery.Numeral
