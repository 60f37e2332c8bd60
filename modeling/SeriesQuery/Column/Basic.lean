import SeriesQuery.Column.Kind
import SeriesQuery.Number.Word

/-!
# Columns

A column is a kind and a sequence of cells of that kind.  An operation that
copies a cell from another column checks first that the kinds agree, then the
row it reads, then the row it writes; one that fails gives no column back, so a
failure changes nothing.
-/

namespace SeriesQuery

/-- Why columns or the frames made of them cannot be worked on. -/
inductive ConversionError where
  /-- Rows are not in the order of their times. -/
  | notSortedByTime
  /-- A frame to be spread is not a long series. -/
  | notLongSeries
  /-- A row has no time. -/
  | nullTime (row : Nat)
  /-- A value of one kind was to enter a column of another. -/
  | kindMismatch (expected found : Kind)
  /-- There is no such row. -/
  | rowOutOfBounds (row length : Nat)
  /-- There is no such time field. -/
  | notTimeField (index : Nat)
  /-- The width of the buckets is no positive number of 63 bits. -/
  | invalidInterval
  /-- A bucket starts at a second that no instant has. -/
  | timeOutOfRange (second : Int)
  /-- There are too many buckets. -/
  | tooManyBuckets (count : Nat)
  /-- A schema names a field that the frame does not have. -/
  | noSuchField (index count : Nat)
  /-- No word holds the result of an operation on seconds. -/
  | overflow (operation : Word.Operation)
deriving DecidableEq

/-- The most buckets that are filled. -/
def maxBuckets : Nat := 1000000

def ConversionError.message : ConversionError → String
  | .notSortedByTime => "long series must be sorted ascending by time to be converted"
  | .notLongSeries => "frame is not a long time series"
  | .nullTime row => s!"time value at row {row} is null"
  | .kindMismatch expected found =>
    "field type mismatch: expected " ++ expected.name ++ ", found " ++ found.name
  | .rowOutOfBounds row length => s!"row {row} out of bounds for field of length {length}"
  | .notTimeField index => s!"field {index} is not a time field"
  | .invalidInterval => "fill interval must be at least one second"
  | .timeOutOfRange second => s!"time bucket {second} is out of range"
  | .tooManyBuckets count =>
    s!"gap fill would produce {count} buckets, more than the maximum of {maxBuckets}"
  | .noSuchField index count =>
    s!"index out of bounds: the len is {count} but the index is {index}"
  | .overflow operation => operation.overflowText

/-- Cells of one kind. -/
structure Column where
  kind : Kind
  /-- The cells, by row. -/
  cells : Array kind.Cell

namespace Column

instance : DecidableEq Column
  | ⟨k, cs⟩, ⟨l, ds⟩ =>
    if h : k = l then by
      subst h
      exact if hc : cs = ds then isTrue (by rw [hc]) else isFalse (by simpa using hc)
    else isFalse (by intro he; exact h (congrArg Column.kind he))

/-- The column without cells. -/
def empty (k : Kind) : Column := ⟨k, #[]⟩

/-- So many nulls. -/
def nulls (k : Kind) (length : Nat) : Column := ⟨k, Array.replicate length none⟩

def length (c : Column) : Nat := c.cells.size

/-- The cell of a row. -/
def cell (c : Column) (row : Nat) : Except ConversionError c.kind.Cell :=
  match c.cells[row]? with
  | some cell => .ok cell
  | none => .error (.rowOutOfBounds row c.length)

def push (c : Column) (cell : c.kind.Cell) : Column := ⟨c.kind, c.cells.push cell⟩

/-- Overwrites the cell of a row. -/
def set (c : Column) (row : Nat) (cell : c.kind.Cell) : Except ConversionError Column :=
  if h : row < c.cells.size then .ok ⟨c.kind, c.cells.set row cell h⟩
  else .error (.rowOutOfBounds row c.length)

def pushNull (c : Column) : Column := c.push none

/-- The cell of a row of a column that must have the kind `k`. -/
def cellAs (k : Kind) (source : Column) (row : Nat) : Except ConversionError k.Cell :=
  if h : source.kind = k then h ▸ source.cell row
  else .error (.kindMismatch k source.kind)

/-- Appends a copy of a cell of another column. -/
def pushFrom (c source : Column) (row : Nat) : Except ConversionError Column :=
  match cellAs c.kind source row with
  | .ok cell => .ok (c.push cell)
  | .error e => .error e

/-- Overwrites a cell by a copy of a cell of another column. -/
def setFrom (c : Column) (row : Nat) (source : Column) (sourceRow : Nat) :
    Except ConversionError Column :=
  match cellAs c.kind source sourceRow with
  | .ok cell => c.set row cell
  | .error e => .error e

/-- Overwrites a cell by a copy of another cell of the column. -/
def copyWithin (c : Column) (source target : Nat) : Except ConversionError Column :=
  match c.cell source with
  | .ok cell => c.set target cell
  | .error e => .error e

/-- Appends a copy of the last cell, null if there is none. -/
def pushRepeatLast (c : Column) : Column := c.push (c.cells.back?.join)

/-- Appends a fill constant. -/
def pushConstant (c : Column) (x : Binary64) : Column := c.push (c.kind.constantCell x)

/-- Overwrites a cell of a numeric column by a fill constant; another column is
left as it is, whatever the row. -/
def setConstant (c : Column) (row : Nat) (x : Binary64) : Except ConversionError Column :=
  if c.kind.isNumeric then c.set row (c.kind.constantCell x) else .ok c

/-- The instant in a row of a column of instants. -/
def instant? : Column → Nat → Option Instant
  | ⟨.timestamp, cells⟩, row => cells[row]?.join
  | _, _ => none

def pushInstant : Column → Instant → Except ConversionError Column
  | ⟨.timestamp, cells⟩, t => .ok ⟨.timestamp, cells.push (some t)⟩
  | c, _ => .error (.kindMismatch .timestamp c.kind)

/-- The text of a cell as a label: a null, or a row that is not there, has the
empty text. -/
def labelText (c : Column) (row : Nat) : String :=
  match c.cells[row]?.join with
  | some value => c.kind.text value
  | none => ""

end Column

end SeriesQuery
