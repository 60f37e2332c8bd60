import SeriesQuery.Expansion.Expand
import SeriesQuery.Query.Error
import SeriesQuery.Query.Executor
import SeriesQuery.Query.Request

/-!
# Running a query

A query is expanded, its statement is executed, the result is read into a table
and the table becomes a frame.  A stage that fails ends the query.  Whatever
happens, the output is a frame with a note of its tag and of the statement that was
executed, and an error if there was one; then the frame has no fields.

A run also records the statements that the executor was given, and it has no
output if the executor waits for a request that has not been given up.
-/

namespace SeriesQuery

/-- A query whose calls are expanded. -/
structure ExpandedQuery where
  sql : String
  /-- The form of the rows. -/
  format : DataFormat
  /-- What the expansion found out. -/
  context : ExpansionContext

/-- The frame of a query, and its error if it failed. -/
structure QueryOutput where
  frame : Frame
  error : Option QueryError
deriving DecidableEq

/-- What came of something that an executor was asked for. -/
inductive Progress (α : Type) where
  | done (result : α)
  /-- The executor waits. -/
  | waiting
deriving DecidableEq

/-- What came of a query, and the statements the executor was given. -/
structure QueryRun where
  /-- The output, if the executor does not wait. -/
  output : Progress QueryOutput
  /-- The statements, in order. -/
  executed : List String

namespace ExpandedQuery

/-- Expands the calls of a query. -/
def ofRequest (d : Dialect) (request : QueryRequest) : Except QueryError ExpandedQuery :=
  match Expansion.expand d (.fresh request.range request.interval) request.raw with
  | .error e => .error (.ofExpansion e)
  | .ok (sql, context) => .ok ⟨sql, request.format, context⟩

/-- How the gaps of the result are filled. -/
def gaps (q : ExpandedQuery) : GapFill := ⟨q.context.range, q.context.interval, q.context.fill⟩

/-- The table that an answer to the statement gives. -/
def readAnswer (q : ExpandedQuery) : Answer → Progress (Except QueryError Table)
  | .waiting => .waiting
  | .failure e => .done (.error (.execution q.sql e))
  | .fault (.answering payload) => .done (.error (.fault payload.message))
  | .fault (.fetching columns rows payload) =>
    match Table.ofRows columns rows with
    | .ok _ => .done (.error (.fault payload.message))
    | .error e => .done (.error (.ofTable q.sql e))
  | .rows result =>
    match Table.ofResult result with
    | .ok table => .done (.ok table)
    | .error e => .done (.error (.ofTable q.sql e))

/-- Gives the statement to an executor and reads its answer. -/
def execute (q : ExpandedQuery) (x : Executor) (cancelled : Bool) :
    Progress (Except QueryError Table) :=
  q.readAnswer (x.reply cancelled q.sql)

/-- The frame of a table. -/
def toFrame (q : ExpandedQuery) (table : Table) : Except QueryError Frame :=
  match table.assemble q.format q.gaps with
  | .ok frame => .ok frame
  | .error e => .error (.ofConversion e)

end ExpandedQuery

namespace QueryOutput

/-- The output of a query that ended with a frame or an error, and had this
statement executed. -/
def ofResult (format : DataFormat) (executed : String) (result : Except QueryError Frame) :
    QueryOutput :=
  let frame :=
    match result with
    | .ok frame => frame
    | .error _ => .empty Frame.responseName
  { frame := { frame with note := some ⟨.of format frame, executed⟩ }
    error :=
      match result with
      | .ok _ => none
      | .error e => some e }

end QueryOutput

namespace QueryRequest

/-- Runs a query. -/
def run (request : QueryRequest) (x : Executor) (d : Dialect) (cancelled : Bool) : QueryRun :=
  match ExpandedQuery.ofRequest d request with
  | .error e => ⟨.done (.ofResult request.format "" (.error e)), []⟩
  | .ok q =>
    let output : Progress QueryOutput :=
      match q.execute x cancelled with
      | .waiting => .waiting
      | .done result => .done (.ofResult request.format q.sql (result.bind q.toFrame))
    ⟨output, [q.sql]⟩

end QueryRequest

end SeriesQuery
