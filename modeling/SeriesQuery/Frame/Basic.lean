import SeriesQuery.Column.Basic
import SeriesQuery.SortedMap

/-!
# Frames

A frame is a sequence of named columns, its fields, that are meant to have one
cell for each row.  A field may carry labels, which tell the series it belongs
to from the others of the same name.
-/

namespace SeriesQuery

/-- A label set: texts by name. -/
abbrev Labels := SortedMap String String

/-- How the rows of a result are to be read. -/
inductive DataFormat where
  /-- As points of time series. -/
  | timeseries
  /-- As the rows of a table. -/
  | table
deriving DecidableEq

def DataFormat.name : DataFormat → String
  | .timeseries => "timeseries"
  | .table => "table"

/-- What a frame is tagged as. -/
inductive FrameType where
  | table
  /-- A time field and fields of values. -/
  | timeseriesWide
deriving DecidableEq

def FrameType.name : FrameType → String
  | .table => "table"
  | .timeseriesWide => "timeseries-wide"

/-- What is noted on the frame of a query. -/
structure FrameNote where
  type : FrameType
  /-- The SQL that was executed. -/
  executed : String
deriving DecidableEq

/-- A named column with the labels of its series. -/
structure Field where
  name : String
  /-- The labels, of which there may be none. -/
  labels : Labels
  /-- The cells. -/
  column : Column
deriving DecidableEq

namespace Field

/-- A field without labels. -/
def ofColumn (name : String) (column : Column) : Field := ⟨name, .empty, column⟩

def kind (f : Field) : Kind := f.column.kind

def length (f : Field) : Nat := f.column.length

/-- The field without its cells. -/
def emptyCopy (f : Field) : Field := { f with column := .empty f.kind }

end Field

/-- The labels as `name=text`, with commas between them.  Different label sets
can have the same text. -/
def Labels.text (labels : Labels) : String :=
  String.intercalate ", " (labels.entries.map fun e => e.1 ++ "=" ++ e.2)

/-- The name of a field, followed by its labels in braces if it has any. -/
def Field.displayName (f : Field) : String :=
  if f.labels.isEmpty then f.name else f.name ++ " \x7b" ++ Labels.text f.labels ++ "\x7d"

/-- A sequence of fields. -/
structure Frame where
  name : String
  fields : List Field
  /-- What is noted on it. -/
  note : Option FrameNote
deriving DecidableEq

namespace Frame

/-- The name of the frames that answer queries. -/
def responseName : String := "response"

/-- A frame without fields. -/
def empty (name : String) : Frame := ⟨name, [], none⟩

def rowCount (f : Frame) : Nat := (f.fields.head?.map Field.length).getD 0

/-- The first field of a name. -/
def field? (f : Frame) (name : String) : Option Field := f.fields.find? fun g => g.name == name

/-- The frame without its rows. -/
def emptyCopy (f : Frame) : Frame := { f with fields := f.fields.map Field.emptyCopy }

/-- Appends a row of other fields to fields, one after the other.  At the first
field that cannot take its cell the rest stays as it is, and the error is
returned; the fields before keep their new cells. -/
def appendRow (row : Nat) : List Field → List Field → List Field × Option ConversionError
  | f :: fs, g :: gs =>
    match f.column.pushFrom g.column row with
    | .error e => (f :: fs, some e)
    | .ok column =>
      let (fs, failure) := appendRow row fs gs
      ({ f with column } :: fs, failure)
  | fs, _ => (fs, none)

/-- Appends a row of another frame. -/
def pushRowFrom (f source : Frame) (row : Nat) : Frame × Option ConversionError :=
  let (fields, failure) := appendRow row f.fields source.fields
  ({ f with fields }, failure)

/-- The instants of cells, none of which may be null. -/
def instants : (row : Nat) → List Kind.timestamp.Cell → Except ConversionError (List Instant)
  | _, [] => .ok []
  | row, none :: _ => .error (.nullTime row)
  | row, some t :: cells =>
    match instants (row + 1) cells with
    | .ok ts => .ok (t :: ts)
    | .error e => .error e

/-- The times of the rows by the field of an index, which has to be a field of
instants. -/
def times (f : Frame) (index : Nat) : Except ConversionError (List Instant) :=
  match (f.fields[index]?).map Field.column with
  | some ⟨.timestamp, cells⟩ => instants 0 cells.toList
  | _ => .error (.notTimeField index)

/-- Whether no time is earlier than the one before it. -/
def timesAscend : List Instant → Bool
  | s :: t :: ts => !decide (t < s) && timesAscend (t :: ts)
  | _ => true

end Frame

end SeriesQuery
