import SeriesQuery.Time.Rfc3339

/-!
# Dialects

The fragments of SQL that the time macros stand for, in the two dialects that
are written.  Instants are written as RFC 3339 in UTC.  Buckets start at
multiples of their width since the start of 1970, in both dialects.
-/

namespace SeriesQuery

/-- A dialect of SQL. -/
inductive Dialect where
  | snowflake
  | dataFusion
deriving DecidableEq

namespace Dialect

/-- A column read as a time, under the name `time`. -/
def timeColumn : Dialect → String → String
  | .snowflake, column => "TO_TIMESTAMP_NTZ(" ++ column ++ ") AS time"
  | .dataFusion, column => "CAST(" ++ column ++ " AS TIMESTAMP) AS time"

/-- An instant as a constant. -/
def timestampLiteral : Dialect → Instant → String
  | .snowflake, t => "'" ++ Rfc3339.write t ++ "'"
  | .dataFusion, t => "TIMESTAMP '" ++ Rfc3339.write t ++ "'"

/-- The start of the bucket of the given width that holds a column's time. -/
def timeBucket : Dialect → String → (seconds : Nat) → String
  | .snowflake, column, seconds =>
    "TIME_SLICE(TO_TIMESTAMP_NTZ(" ++ column ++ "), " ++ toString seconds ++
      ", 'SECOND', 'START')"
  | .dataFusion, column, seconds =>
    "date_bin(INTERVAL '" ++ toString seconds ++ " seconds', CAST(" ++ column ++
      " AS TIMESTAMP), TIMESTAMP '1970-01-01T00:00:00Z')"

/-- Whether a column's time lies in a range, both ends included. -/
def timeFilter (d : Dialect) (column : String) (range : TimeRange) : String :=
  column ++ " BETWEEN " ++ d.timestampLiteral range.start ++ " AND " ++
    d.timestampLiteral range.stop

end Dialect

end SeriesQuery
