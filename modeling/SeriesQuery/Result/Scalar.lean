import SeriesQuery.Column.Kind
import SeriesQuery.Number.Numeral
import SeriesQuery.Text.Blank

/-!
# Scalars of a result

The cells of a result arrive one by one without the kind of their column.  A
column takes a scalar of its own kind, and two kinds take more: a column of whole
numbers takes texts that are numerals of 64 signed bits, a column of doubles takes
whole numbers and texts that are numerals.  Blanks around such a text do not
matter.  `Scalar.Coerces` has a case for each of these ways, and there are no
others (`Scalar.coerce?_eq_some_iff`).
-/

namespace SeriesQuery

/-- A cell of a result. -/
inductive Scalar where
  | null
  | string (s : String)
  | int (n : Int64)
  | float (x : Binary64)
  | timestamp (t : Instant)
  | bool (b : Bool)
deriving DecidableEq

namespace Scalar

def typeName : Scalar → String
  | .null => "null"
  | .string _ => "string"
  | .int _ => "int64"
  | .float _ => "float64"
  | .timestamp _ => "timestamp"
  | .bool _ => "bool"

def text : Scalar → String
  | .null => "NULL"
  | .string s => s
  | .int n => Kind.text .integer n
  | .float x => Kind.text .float x
  | .timestamp t => Kind.text .timestamp t
  | .bool b => Kind.text .boolean b

/-- A value of a kind as a scalar. -/
def ofValue : (k : Kind) → k.Value → Scalar
  | .string, s => .string s
  | .integer, n => .int n
  | .float, x => .float x
  | .timestamp, t => .timestamp t
  | .boolean, b => .bool b

/-- The scalar as a value of a kind, if a column of the kind takes it. -/
def coerce? : (k : Kind) → Scalar → Option k.Value
  | .string, .string s => some s
  | .integer, .int n => some n
  | .integer, .string s => Digits.readInt64? (Text.trim s.toList)
  | .float, .float x => some x
  | .float, .int n => some (Binary64.ofInt n.toInt)
  | .float, .string s => Numeral.read? (Text.trim s.toList)
  | .timestamp, .timestamp t => some t
  | .boolean, .bool b => some b
  | _, _ => none

/-- A column of a kind takes a scalar as a value. -/
inductive Coerces : (k : Kind) → Scalar → k.Value → Prop where
  /-- A scalar of the kind itself stays as it is. -/
  | string (s : String) : Coerces .string (.string s) s
  | integer (n : Int64) : Coerces .integer (.int n) n
  | float (x : Binary64) : Coerces .float (.float x) x
  | timestamp (t : Instant) : Coerces .timestamp (.timestamp t) t
  | boolean (b : Bool) : Coerces .boolean (.bool b) b
  /-- A text that is a numeral without its blanks becomes a whole number, if it fits. -/
  | wholeText {s : String} {n : Int64} (h : Digits.readInt64? (Text.trim s.toList) = some n) :
      Coerces .integer (.string s) n
  /-- A whole number becomes the double nearest to it. -/
  | whole (n : Int64) : Coerces .float (.int n) (Binary64.ofInt n.toInt)
  /-- A text that is a numeral without its blanks becomes a double. -/
  | decimalText {s : String} {x : Binary64} (h : Numeral.read? (Text.trim s.toList) = some x) :
      Coerces .float (.string s) x

theorem coerce?_eq_some_iff {k : Kind} {v : Scalar} {x : k.Value} :
    v.coerce? k = some x ↔ Coerces k v x := by
  constructor
  · intro h
    unfold coerce? at h
    split at h
    next s => cases h; exact .string s
    next n => cases h; exact .integer n
    next => exact .wholeText h
    next y => cases h; exact .float y
    next n => cases h; exact .whole n
    next => exact .decimalText h
    next t => cases h; exact .timestamp t
    next b => cases h; exact .boolean b
    next => cases h
  · intro h
    cases h with
    | string | integer | float | timestamp | boolean | whole => rfl
    | wholeText h => exact h
    | decimalText h => exact h

end Scalar

end SeriesQuery
