import SeriesQuery.FillPolicy
import SeriesQuery.Frame.Schema

/-!
# Spreading a long series

A long series becomes a wide one with a row for every time that occurs and a
field for every pair of a value column and a label set that occurs together.
The fields are in the order of their names, and of their labels where the names
are the same.

The rows are taken in order.  Each writes its values into the fields of its label
set, in the row of its time, so of several values for one cell the last stays.
Then the cells that no row has written are filled by the policy.
-/

namespace SeriesQuery

/-- What tells series apart: a name and a label set. -/
structure SeriesKey where
  name : String
  labels : Labels
deriving DecidableEq

namespace SeriesKey

/-- The name followed by names and texts of the labels in turn.  Keys are
compared by it. -/
def spine (k : SeriesKey) : List String := k.name :: k.labels.entries.flatMap fun e => [e.1, e.2]

instance : LT SeriesKey := ⟨fun k l => k.spine < l.spine⟩

instance : DecidableLT SeriesKey := fun k l => inferInstanceAs (Decidable (k.spine < l.spine))

end SeriesKey

/-- The values of one series by time; a slot that no row has written is `none`,
one that a null was written to is `some none`. -/
structure SeriesCells where
  kind : Kind
  /-- A slot for every time. -/
  slots : Array (Option kind.Cell)

namespace SeriesCells

/-- A series that no row has written to. -/
def blank (k : Kind) (size : Nat) : SeriesCells := ⟨k, Array.replicate size none⟩

/-- Writes a cell of a column into a slot. -/
def write (s : SeriesCells) (slot : Nat) (source : Column) (row : Nat) :
    Except ConversionError SeriesCells :=
  match Column.cellAs s.kind source row with
  | .error e => .error e
  | .ok cell =>
    if h : slot < s.slots.size then .ok ⟨s.kind, s.slots.set slot (some cell) h⟩
    else .error (.rowOutOfBounds slot s.slots.size)

/-- The cells of slots, where `previous` is the cell before the first one. -/
def fillSlots (k : Kind) (policy : FillPolicy) (previous : k.Cell) :
    List (Option k.Cell) → List k.Cell
  | [] => []
  | some cell :: slots => cell :: fillSlots k policy cell slots
  | none :: slots =>
    let cell :=
      match policy with
      | .null => none
      | .previous => previous
      | .constant x => k.constantCell x
    cell :: fillSlots k policy cell slots

/-- The series as a column, with the slots no row has written to filled. -/
def toColumn (s : SeriesCells) (policy : FillPolicy) : Column :=
  ⟨s.kind, (fillSlots s.kind policy none s.slots.toList).toArray⟩

end SeriesCells

namespace Pivot

/-- The times without those that repeat the one before. -/
def distinct : List Instant → List Instant
  | s :: t :: ts => if s = t then distinct (t :: ts) else s :: distinct (t :: ts)
  | ts => ts

/-- For every time the number of times before it that differ from the next one:
its index in the list of distinct times, if that of the first is `slot`. -/
def slotsFrom (slot : Nat) : List Instant → List Nat
  | s :: t :: ts => slot :: slotsFrom (if s = t then slot else slot + 1) (t :: ts)
  | [_] => [slot]
  | [] => []

def fieldAt (fields : List Field) (index : Nat) : Except ConversionError Field :=
  match fields[index]? with
  | some f => .ok f
  | none => .error (.noSuchField index fields.length)

/-- The labels of a row.  Of several label columns with one name the last counts. -/
def labelsAt (fields : List Field) (row : Nat) : (indices : List Nat) → (before : Labels) →
    Except ConversionError Labels
  | [], before => .ok before
  | i :: is, before =>
    match fieldAt fields i with
    | .error e => .error e
    | .ok f => labelsAt fields row is (before.insert f.name (f.column.labelText row))

/-- Series by their keys. -/
abbrev SeriesMap := SortedMap SeriesKey SeriesCells

/-- Writes the values of a row into the series of its labels. -/
def writeRow (fields : List Field) (size slot row : Nat) (labels : Labels) :
    (indices : List Nat) → SeriesMap → Except ConversionError SeriesMap
  | [], m => .ok m
  | i :: is, m =>
    match fieldAt fields i with
    | .error e => .error e
    | .ok f =>
      let key : SeriesKey := ⟨f.name, labels⟩
      let series := (m.find? key).getD (.blank f.kind size)
      match series.write slot f.column row with
      | .error e => .error e
      | .ok series => writeRow fields size slot row labels is (m.insert key series)

/-- Writes rows, given the slots of their times, from the row `row` on. -/
def writeRows (fields : List Field) (schema : Schema) (size : Nat) :
    (row : Nat) → (slots : List Nat) → SeriesMap → Except ConversionError SeriesMap
  | _, [], m => .ok m
  | row, slot :: slots, m =>
    match labelsAt fields row schema.labelIndices .empty with
    | .error e => .error e
    | .ok labels =>
      match writeRow fields size slot row labels schema.valueIndices m with
      | .error e => .error e
      | .ok m => writeRows fields schema size (row + 1) slots m

/-- The column of times. -/
def timeColumn (times : List Instant) : Column := ⟨.timestamp, (times.map some).toArray⟩

/-- The field of a series. -/
def seriesField (policy : FillPolicy) (entry : SeriesKey × SeriesCells) : Field :=
  ⟨entry.1.name, entry.1.labels, entry.2.toColumn policy⟩

end Pivot

/-- Spreads a long series by a schema, and fills the cells that no row has
written by a policy. -/
def Frame.pivot (f : Frame) (schema : Schema) (policy : FillPolicy) :
    Except ConversionError Frame :=
  if schema.shape ≠ .long then .error .notLongSeries
  else
    match f.times schema.timeIndex with
    | .error e => .error e
    | .ok times =>
      if !Frame.timesAscend times then .error .notSortedByTime
      else
        let distinct := Pivot.distinct times
        match Pivot.writeRows f.fields schema distinct.length 0 (Pivot.slotsFrom 0 times) .empty with
        | .error e => .error e
        | .ok series =>
          match Pivot.fieldAt f.fields schema.timeIndex with
          | .error e => .error e
          | .ok time =>
            .ok { f with
              fields := .ofColumn time.name (Pivot.timeColumn distinct) ::
                series.entries.map (Pivot.seriesField policy) }

end SeriesQuery
