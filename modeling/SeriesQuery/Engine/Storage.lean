import SeriesQuery.Column.Basic
import SeriesQuery.Result.Cursor

/-!
# How the engine stores columns

The engine knows more types than there are kinds.  The cells of a stored column
are brought to its kind before they are read: whole numbers to 64 signed bits,
fractions to doubles, counts of a unit of time to instants.  A value that has no
counterpart becomes null.  A column of a type without a kind is kept by the name of
its type, and all that is known of its cells is which of them hold something.
-/

namespace SeriesQuery

/-- A unit that times are counted in. -/
inductive TimeUnit where
  | second
  /-- Thousandths. -/
  | milli
  /-- Millionths. -/
  | micro
  | nano
deriving DecidableEq

/-- The nanoseconds of a unit. -/
def TimeUnit.nanos : TimeUnit → Int
  | .second => 1000000000
  | .milli => 1000000
  | .micro => 1000
  | .nano => 1

/-- A type of stored cells. -/
inductive Storage where
  | text
  /-- Whole numbers. -/
  | whole
  /-- Numbers of half precision, by their bits. -/
  | half
  /-- Numbers of single precision. -/
  | single
  | double
  /-- Whole numbers that stand for themselves divided by a power of ten. -/
  | decimal (scale : Int)
  /-- Times since the start of 1970, counted in a unit. -/
  | timestamp (unit : TimeUnit)
  | boolean
  /-- A type without a kind. -/
  | foreign (typeName : String)
  /-- The type whose cells hold nothing, and are not known to. -/
  | void
deriving DecidableEq

namespace Storage

/-- The stored values of a type. -/
abbrev Value : Storage → Type
  | .text => String
  | .whole => Int
  | .half => Nat
  | .single => Binary64
  | .double => Binary64
  | .decimal _ => Int
  | .timestamp _ => Int
  | .boolean => Bool
  | .foreign _ => Unit
  | .void => Unit

/-- The name of the type without cells. -/
def voidName : String := "Null"

/-- What a column of a type declares. -/
def declared : Storage → DeclaredKind
  | .text => .kind .string
  | .whole => .kind .integer
  | .half => .kind .float
  | .single => .kind .float
  | .double => .kind .float
  | .decimal _ => .kind .float
  | .timestamp _ => .kind .timestamp
  | .boolean => .kind .boolean
  | .foreign typeName => .unsupported typeName
  | .void => .unsupported voidName

/-- A decimal as a double. -/
def decimalValue (scale n : Int) : Binary64 := (Binary64.ofInt n).div (Binary64.powTen scale)

/-- A count of a unit as an instant, if the nanoseconds fit 64 signed bits. -/
def instant? (unit : TimeUnit) (n : Int) : Option Instant :=
  (Digits.toInt64? (n * unit.nanos)).bind fun nanos => Instant.ofNanos? nanos.toInt

end Storage

/-- The cells of a column of a batch, brought to the kind of the column. -/
inductive Vector where
  /-- Cells of a kind. -/
  | known (cells : Column)
  /-- Cells of a type without a kind: which of them hold something. -/
  | foreign (typeName : String) (present : List Bool)

namespace Vector

/-- Brings stored cells to their kind. -/
def ofStored : (s : Storage) → List (Option s.Value) → Vector
  | .text, cells => .known ⟨.string, cells.toArray⟩
  | .whole, cells => .known ⟨.integer, (cells.map (·.bind Digits.toInt64?)).toArray⟩
  | .half, cells => .known ⟨.float, (cells.map (·.map Binary64.ofHalf)).toArray⟩
  | .single, cells => .known ⟨.float, (cells.map (·.map Binary64.toSingle)).toArray⟩
  | .double, cells => .known ⟨.float, cells.toArray⟩
  | .decimal scale, cells =>
    .known ⟨.float, (cells.map (·.map (Storage.decimalValue scale))).toArray⟩
  | .timestamp unit, cells => .known ⟨.timestamp, (cells.map (·.bind (Storage.instant? unit))).toArray⟩
  | .boolean, cells => .known ⟨.boolean, cells.toArray⟩
  | .foreign typeName, cells => .foreign typeName (cells.map Option.isSome)
  | .void, cells => .foreign Storage.voidName (cells.map fun _ => true)

def length : Vector → Nat
  | .known cells => cells.length
  | .foreign _ present => present.length

/-- The cell of a row. -/
def scan (row : Nat) : Vector → Except ExecutionError Scalar
  | .known cells => .ok (((cells.cells[row]?).bind id).elim .null (Scalar.ofValue cells.kind))
  | .foreign typeName present =>
    if present[row]? = some true then
      .error (.scan ("cannot scan a value of type " ++ typeName))
    else .ok .null

end Vector

end SeriesQuery
