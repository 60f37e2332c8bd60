import SeriesQuery.Frame.Assemble
import SeriesQuery.Result.Cursor

/-!
# From a result to a table

The columns of a result are checked first: the first one of a type that is not
supported ends the reading before any row is fetched.  Then every row appends one
cell to every column.  A value that its column does not take ends the reading, and
so does a cursor that fails; the first of these in the order of reading counts.

All rows are written into the same slots, which are blank at first.  A value is taken
out of its slot when it is appended, which leaves the slot blank again.
-/

namespace SeriesQuery

/-- Why a result could not be read into a table. -/
inductive TableError where
  /-- A column has a type that is not supported. -/
  | unsupportedType (column typeName : String)
  /-- A value does not fit its column. -/
  | coercion (column : String) (value : Scalar) (expected : Kind)
  /-- A row could not be fetched. -/
  | scan (e : ExecutionError)
deriving DecidableEq

def TableError.message : TableError → String
  | .unsupportedType column typeName =>
    "column [" ++ column ++ "] has unsupported type [" ++ typeName ++ "]"
  | .coercion column value expected =>
    "column [" ++ column ++ "]: cannot convert " ++ value.typeName ++ " value [" ++ value.text ++
      "] to " ++ expected.name
  | .scan e => "failed to read rows: " ++ e.message

namespace TableColumn

/-- A column without cells for a head of a result. -/
def ofHead (head : ColumnHead) : Except TableError TableColumn :=
  match head.kind with
  | .kind k => .ok ⟨head.name, .empty k⟩
  | .unsupported typeName => .error (.unsupportedType head.name typeName)

def append (c : TableColumn) (value : Scalar) : Except TableError TableColumn :=
  if value = .null then .ok { c with column := c.column.pushNull }
  else
    match value.coerce? c.column.kind with
    | some v => .ok { c with column := c.column.push (some v) }
    | none => .error (.coercion c.name value c.column.kind)

end TableColumn

namespace Table

/-- The columns of a result, without cells. -/
def emptyColumns : List ColumnHead → Except TableError (List TableColumn)
  | [] => .ok []
  | head :: heads =>
    match TableColumn.ofHead head with
    | .error e => .error e
    | .ok c =>
      match emptyColumns heads with
      | .error e => .error e
      | .ok cs => .ok (c :: cs)

/-- Appends the values in slots to columns, one to each.  Gives the columns, and the slots
without these values. -/
def appendSlots :
    List TableColumn → List Scalar → Except TableError (List TableColumn × List Scalar)
  | c :: cs, value :: slots =>
    match c.append value with
    | .error e => .error e
    | .ok c =>
      match appendSlots cs slots with
      | .error e => .error e
      | .ok (cs, slots) => .ok (c :: cs, .null :: slots)
  | cs, slots => .ok (cs, slots)

/-- Appends rows to columns.  Each is written into the slots that the row before has left. -/
def appendRows (columns : List TableColumn) (slots : List Scalar) :
    List Row → Except TableError (List TableColumn)
  | [] => .ok columns
  | row :: rows =>
    match appendSlots columns (row.write slots) with
    | .error e => .error e
    | .ok (columns, slots) => appendRows columns slots rows

/-- Reads rows into columns of the declared kinds. -/
def ofRows (heads : List ColumnHead) (rows : List Row) : Except TableError Table :=
  match emptyColumns heads with
  | .error e => .error e
  | .ok columns =>
    match appendRows columns (blankSlots columns.length) rows with
    | .error e => .error e
    | .ok columns => .ok ⟨columns⟩

/-- Reads a result to its end. -/
def ofResult (result : ResultSet) : Except TableError Table :=
  match ofRows result.columns result.cursor.pending with
  | .error e => .error e
  | .ok table =>
    match result.cursor.failure with
    | some e => .error (.scan e)
    | none => .ok table

end Table

end SeriesQuery
