import SeriesQuery.Number.Numeral

/-!
# Fill policies

What stands in a cell for which a result has no row: nothing, the value before
it, or a constant.
-/

namespace SeriesQuery

/-- What fills a missing cell. -/
inductive FillPolicy where
  | null
  /-- The value of the row before. -/
  | previous
  /-- A constant, in numeric columns; nothing in others. -/
  | constant (value : Binary64)
deriving DecidableEq

namespace FillPolicy

/-- Reads a policy: one of two words in any case, or a number. -/
def read? (cs : List Char) : Option FillPolicy :=
  let word := Numeral.lower cs
  if word = "null".toList then some .null
  else if word = "previous".toList then some .previous
  else (Numeral.read? cs).map .constant

/-- The message for a text that is no policy. -/
def invalidMessage (text : String) : String :=
  "invalid fill mode [" ++ text ++ "]: expected null, previous or a number"

end FillPolicy

end SeriesQuery
