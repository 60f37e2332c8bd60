/-!
# Decimal digits

Numbers as texts of ASCII digits, and the reader of signed whole numbers.

`readInt64?` accepts an optional sign followed by one or more digits whose
value fits sixty-four signed bits, and nothing else.
-/

namespace SeriesQuery.Digits

/-- The decimal digits of a number, without leading zeros. -/
def ofNat (n : Nat) : List Char := Nat.toDigits 10 n

/-- The decimal digits of a number, filled up with leading zeros to `width`. -/
def padded (width n : Nat) : List Char :=
  let ds := ofNat n
  List.replicate (width - ds.length) '0' ++ ds

/-- The number that a text of digits denotes; the empty text denotes zero. -/
def value (ds : List Char) : Nat := Nat.ofDigitChars 10 ds 0

/-- The digits at the front of a text, and the rest. -/
def span (cs : List Char) : List Char × List Char := (cs.takeWhile Char.isDigit, cs.dropWhile Char.isDigit)

/-- The decimal form of a whole number, with a minus sign if it is negative. -/
def ofInt (n : Int) : List Char :=
  if n < 0 then '-' :: ofNat n.natAbs else ofNat n.natAbs

/-- Splits an optional sign off a text: whether it is a minus, and the rest. -/
def splitSign : List Char → Bool × List Char
  | '-' :: cs => (true, cs)
  | '+' :: cs => (false, cs)
  | cs => (false, cs)

/-- Reads an optional sign and one or more digits, to the end of the text. -/
def readInt? (cs : List Char) : Option Int :=
  let (negative, ds) := splitSign cs
  if ds ≠ [] ∧ ds.all Char.isDigit then
    some (if negative then -(value ds : Int) else value ds)
  else none

/-- The least number of sixty-four signed bits. -/
def minInt64 : Int := -9223372036854775808

/-- The greatest number of sixty-four signed bits. -/
def maxInt64 : Int := 9223372036854775807

/-- Narrows a whole number to sixty-four signed bits. -/
def toInt64? (n : Int) : Option Int64 :=
  if minInt64 ≤ n ∧ n ≤ maxInt64 then some (Int64.ofInt n) else none

/-- Reads a whole number of sixty-four signed bits. -/
def readInt64? (cs : List Char) : Option Int64 := (readInt? cs).bind toInt64?

theorem value_ofNat (n : Nat) : value (ofNat n) = n := Nat.ofDigitChars_ten_toDigits

theorem isDigit_of_mem_ofNat {n : Nat} {c : Char} (h : c ∈ ofNat n) : c.isDigit = true :=
  Nat.isDigit_of_mem_toDigits (by decide) (by decide) h

theorem ofNat_ne_nil (n : Nat) : ofNat n ≠ [] := Nat.toDigits_ne_nil

theorem value_padded (width n : Nat) : value (padded width n) = n := by
  simp [value, padded, Nat.ofDigitChars_append, Nat.ofDigitChars_replicate_zero, ofNat,
    Nat.ofDigitChars_ten_toDigits]

theorem toInt_of_toInt64? {n : Int} {v : Int64} (h : toInt64? n = some v) : v.toInt = n := by
  unfold toInt64? at h
  split at h
  · next hb =>
    simp only [Option.some.injEq] at h
    subst h
    exact Int64.toInt_ofInt_of_le (by simpa [minInt64] using hb.1)
      (by have := hb.2; unfold maxInt64 at this; omega)
  · simp at h

end SeriesQuery.Digits
