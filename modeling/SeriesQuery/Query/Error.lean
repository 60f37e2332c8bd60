import SeriesQuery.Expansion.Error
import SeriesQuery.Result.Table

/-!
# Errors of a query

The stages of a query fail for reasons of their own.  A `QueryError` says which
stage it was and why, and has a kind and words for the user.  A fault, which is a
defect and no reason, has a kind of its own and its text.
-/

namespace SeriesQuery

/-- The kinds of errors. -/
inductive ErrorKind where
  /-- A call in the query text is ill-formed. -/
  | macroSyntax
  /-- There are two calls for buckets. -/
  | duplicateBucket
  /-- The statement failed, or the reading of its result. -/
  | execution
  /-- A column has a type that is not supported. -/
  | unsupportedColumnType
  /-- A value does not fit its column. -/
  | typeCoercion
  /-- Rows are not in the order of their times. -/
  | rowsNotSorted
  /-- The rows could not be made a frame for another reason. -/
  | conversion
  | internalFault
deriving DecidableEq

def ErrorKind.name : ErrorKind → String
  | .macroSyntax => "macro-syntax-error"
  | .duplicateBucket => "duplicate-bucket-macro"
  | .execution => "query-execution-error"
  | .unsupportedColumnType => "unsupported-column-type"
  | .typeCoercion => "type-coercion-failure"
  | .rowsNotSorted => "rows-not-sorted-by-time"
  | .conversion => "conversion-error"
  | .internalFault => "internal-fault"

/-- Why a query failed. -/
inductive QueryError where
  /-- A call could not be expanded. -/
  | expansion (e : ExpansionError)
  /-- The statement failed, or the reading of its result. -/
  | execution (sql : String) (e : ExecutionError)
  /-- The result could not be read into a table. -/
  | table (e : TableError)
  /-- The table could not be made a frame. -/
  | conversion (e : ConversionError)
  | fault (message : String)
deriving DecidableEq

namespace QueryError

/-- The error of an expansion.  A sum of spans that leaves the range of spans in
the last step is a fault. -/
def ofExpansion : ExpansionError → QueryError
  | .invalidWidth _ (.unreadable .carryOverflow) => .fault Span.ReadError.carryOverflow.message
  | e => .expansion e

/-- The error of a conversion.  A schema that does not belong to its frame is a
fault, and so is an operation on seconds whose result no word holds. -/
def ofConversion : ConversionError → QueryError
  | .noSuchField index count => .fault (ConversionError.noSuchField index count).message
  | .overflow operation => .fault (ConversionError.overflow operation).message
  | e => .conversion e

/-- The error of reading the result of a statement; a cursor that fails is a
failure of the statement. -/
def ofTable (sql : String) : TableError → QueryError
  | .scan e => .execution sql e
  | e => .table e

def kind : QueryError → ErrorKind
  | .expansion .secondBucket => .duplicateBucket
  | .expansion _ => .macroSyntax
  | .execution _ _ => .execution
  | .table (.scan _) => .execution
  | .table (.unsupportedType _ _) => .unsupportedColumnType
  | .table (.coercion _ _ _) => .typeCoercion
  | .conversion .notSortedByTime => .rowsNotSorted
  | .conversion _ => .conversion
  | .fault _ => .internalFault

def message : QueryError → String
  | .expansion e => "query build: " ++ e.message
  | .execution sql e => "query execution: failed to query [" ++ sql ++ "]: " ++ e.message
  | .table e => "query execution: " ++ e.message
  | .conversion e => "query execution: " ++ e.message
  | .fault text => "panic: " ++ text

/-- What a user is told when rows are out of order. -/
def sortHint : String :=
  "If \"Data Format\" is timeseries, please set the order by a time-type column. " ++
    "Otherwise, change \"Data Format\" to table."

/-- What a user is told. -/
def userMessage (e : QueryError) : String :=
  if e.kind = .rowsNotSorted then sortHint else e.message

/-- Stands for the place of a fault, which is not worked out. -/
def faultLocation : String := "<backtrace>"

def location? : QueryError → Option String
  | .fault _ => some faultLocation
  | _ => none

end QueryError

end SeriesQuery
