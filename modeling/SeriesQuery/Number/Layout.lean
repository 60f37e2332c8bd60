import SeriesQuery.Number.Shortest

/-!
# Writing doubles

A `Layout` says how the digits of a double are laid out: where the point stands,
when an exponent is used instead, and whether a whole number keeps `.0`.
`Layout.write` puts the shortest digits of a double into a layout.

Three layouts are used.  `plain` never uses an exponent and writes whole numbers
without a point; it is the layout of cells and labels.  `tagged` writes whole
numbers with `.0` and very large and very small ones with an exponent; it is the
layout of a fill constant in the command line's report.  `json` is the layout of
numbers in JSON.
-/

namespace SeriesQuery

/-- How the digits of a number are laid out. -/
structure Layout where
  /-- The least power of ten of the leading digit that is written without an
  exponent; `none` if there is no least one. -/
  leastPositional : Option Int
  /-- The greatest power of ten of the leading digit that is written without an
  exponent; `none` if there is no greatest one. -/
  greatestPositional : Option Int
  /-- What follows a whole number. -/
  wholeSuffix : List Char
  /-- What stands before a positive exponent. -/
  exponentSign : List Char

namespace Layout

/-- The layout of cells and labels. -/
def plain : Layout := ⟨none, none, [], []⟩

/-- The layout of a fill constant in the command line's report. -/
def tagged : Layout := ⟨some (-4), some 15, ['.', '0'], []⟩

/-- The layout of numbers in JSON. -/
def json : Layout := ⟨some (-5), some 15, ['.', '0'], ['+']⟩

/-- Whether a number whose leading digit has the power `k` of ten is written
without an exponent. -/
def isPositional (l : Layout) (k : Int) : Bool :=
  l.leastPositional.all (· ≤ k) && l.greatestPositional.all (k ≤ ·)

/-- The digits `ds`, counted in `10^exponent`, without an exponent. -/
def positional (l : Layout) (ds : List Char) (exponent : Int) : List Char :=
  if 0 ≤ exponent then ds ++ List.replicate exponent.toNat '0' ++ l.wholeSuffix
  else
    let places := (-exponent).toNat
    if places < ds.length then
      ds.take (ds.length - places) ++ '.' :: ds.drop (ds.length - places)
    else '0' :: '.' :: List.replicate (places - ds.length) '0' ++ ds

/-- The digits `ds`, whose first has the power `k` of ten, with an exponent. -/
def scientific (l : Layout) (ds : List Char) (k : Int) : List Char :=
  let fraction := if ds.length ≤ 1 then [] else '.' :: ds.drop 1
  let sign := if 0 ≤ k then l.exponentSign else []
  ds.take 1 ++ fraction ++ 'e' :: sign ++ Digits.ofInt k

/-- A decimal in this layout. -/
def writeDecimal (l : Layout) (d : Shortest) : List Char :=
  let ds := Digits.ofNat d.significand
  let k := d.exponent + ds.length - 1
  if d.significand = 0 ∨ l.isPositional k then l.positional ds d.exponent
  else l.scientific ds k

/-- A double in this layout, by the fewest digits that read back.  The sign of
zero is kept, and what is not a number has no sign. -/
def write (l : Layout) (x : Binary64) : List Char :=
  match x.view with
  | .nan => ['N', 'a', 'N']
  | .infinite negative => if negative then ['-', 'i', 'n', 'f'] else ['i', 'n', 'f']
  | .finite negative m q =>
    let digits := l.writeDecimal (Shortest.ofScaled m q)
    if negative then '-' :: digits else digits

end Layout

end SeriesQuery
