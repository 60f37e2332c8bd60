import SeriesQuery.Frame.Fill
import SeriesQuery.Frame.Pivot

/-!
# From a table to the frame of an answer

The columns of a table become the fields of a frame.  If time series were asked
for and the rows form some, a long series is spread, and if a fill mode was
given, the gaps are filled.
-/

namespace SeriesQuery

/-- A column of a table. -/
structure TableColumn where
  name : String
  column : Column
deriving DecidableEq

/-- A result with typed columns, all of one length. -/
structure Table where
  columns : List TableColumn
deriving DecidableEq

namespace Table

def rowCount (t : Table) : Nat := (t.columns.head?.map fun c => c.column.length).getD 0

/-- The columns as fields without labels. -/
def toFrame (t : Table) (name : String) : Frame :=
  ⟨name, t.columns.map fun c => .ofColumn c.name c.column, none⟩

end Table

/-- How the gaps of a series are filled. -/
structure GapFill where
  /-- The range whose buckets are filled. -/
  range : TimeRange
  /-- The width of the buckets. -/
  interval : Span
  /-- The policy, if one was asked for. -/
  policy : Option FillPolicy

/-- Fills the gaps of a wide series, if a policy was asked for. -/
def Frame.fillGaps (f : Frame) (gaps : GapFill) : Except ConversionError Frame :=
  match gaps.policy with
  | none => .ok f
  | some policy => f.fill f.schema.timeIndex gaps.range gaps.interval policy

/-- The frame of a table that answers a query. -/
def Table.assemble (t : Table) (format : DataFormat) (gaps : GapFill) :
    Except ConversionError Frame :=
  let frame := t.toFrame Frame.responseName
  if frame.rowCount = 0 ∨ format ≠ .timeseries then .ok frame
  else
    match frame.schema.shape with
    | .none => .ok frame
    | .wide => frame.fillGaps gaps
    | .long =>
      match frame.pivot frame.schema (gaps.policy.getD .null) with
      | .error e => .error e
      | .ok wide => wide.fillGaps gaps

end SeriesQuery
