import SeriesQuery.Number.Layout
import SeriesQuery.Time.Rfc3339

/-!
# Kinds of values

The five kinds of values a column holds, the type of the values of each, and
their texts.  Values of different kinds never meet in a column: a column's type
of cells is a function of its kind.
-/

namespace SeriesQuery

/-- A kind of values. -/
inductive Kind where
  | string
  /-- Whole numbers of 64 signed bits. -/
  | integer
  | float
  | timestamp
  | boolean
deriving DecidableEq

namespace Kind

/-- The values of a kind. -/
abbrev Value : Kind → Type
  | .string => String
  | .integer => Int64
  | .float => Binary64
  | .timestamp => Instant
  | .boolean => Bool

/-- A cell of a column: a value, or null. -/
abbrev Cell (k : Kind) : Type := Option k.Value

instance instDecidableEqValue : (k : Kind) → DecidableEq k.Value
  | .string => inferInstanceAs (DecidableEq String)
  | .integer => inferInstanceAs (DecidableEq Int64)
  | .float => inferInstanceAs (DecidableEq Binary64)
  | .timestamp => inferInstanceAs (DecidableEq Instant)
  | .boolean => inferInstanceAs (DecidableEq Bool)

def name : Kind → String
  | .string => "string"
  | .integer => "integer"
  | .float => "float"
  | .timestamp => "timestamp"
  | .boolean => "boolean"

/-- Whether values of the kind are numbers. -/
def isNumeric : Kind → Bool
  | .integer => true
  | .float => true
  | _ => false

def text : (k : Kind) → k.Value → String
  | .string, s => s
  | .integer, n => String.ofList (Digits.ofInt n.toInt)
  | .float, x => String.ofList (Layout.plain.write x)
  | .timestamp, t => Rfc3339.writeNumeric t
  | .boolean, b => if b then "true" else "false"

/-- A fill constant as a cell: whole numbers lose its fraction, and kinds that
are not numeric take null. -/
def constantCell : (k : Kind) → Binary64 → k.Cell
  | .integer, x => some x.toInt64
  | .float, x => some x
  | .string, _ => none
  | .timestamp, _ => none
  | .boolean, _ => none

end Kind

end SeriesQuery
