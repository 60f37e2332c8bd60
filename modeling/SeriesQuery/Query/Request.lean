import SeriesQuery.Frame.Basic
import SeriesQuery.Time.Span

/-!
# Requests

A query as it is to be run: its text, the range and the interval it is asked for,
and the form its rows are to be given.
-/

namespace SeriesQuery

/-- A query to be run. -/
structure QueryRequest where
  /-- The name its answer is filed under. -/
  refId : String
  /-- The query text, with macro calls. -/
  raw : String
  range : TimeRange
  /-- The interval that is asked for. -/
  interval : Span
  /-- The form of the rows. -/
  format : DataFormat
deriving DecidableEq

end SeriesQuery
