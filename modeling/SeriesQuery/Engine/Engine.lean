import SeriesQuery.Config.Basic
import SeriesQuery.Engine.Csv.Column
import SeriesQuery.Engine.Statement
import SeriesQuery.Query.Executor

/-!
# The engine

The engine holds tables by their names.  A file becomes a table if it exists, its
name ends in the way of its format, its content has the format and no table has
the name.  Then the engine answers statements.
-/

namespace SeriesQuery

/-- The content of a file. -/
inductive FileContent where
  | text (s : String)
  /-- Stored columns. -/
  | stored (table : StoredTable)

/-- The engine. -/
structure Engine where
  tables : List (String × StoredTable)

namespace Engine

def empty : Engine := ⟨[]⟩

def table? (e : Engine) (name : String) : Option StoredTable :=
  (e.tables.find? fun t => t.1 == name).map (·.2)

/-- Adds a table, if none has its name. -/
def register (e : Engine) (name : String) (t : StoredTable) : Except ExecutionError Engine :=
  if (e.table? name).isSome then .error (.queryFailed "a table of this name exists")
  else .ok ⟨e.tables ++ [(name, t)]⟩

/-- How the names of files of a format end. -/
def extension (format : FileFormat) : String := "." ++ format.name

/-- The table of a file. -/
def load (format : FileFormat) : FileContent → Except ExecutionError StoredTable
  | .text s =>
    match format, Csv.readTable? s.toList with
    | .csv, some t => .ok t
    | _, _ => .error (.queryFailed "not a file of its format")
  | .stored t => if format = .parquet then .ok t else .error (.queryFailed "not a file of its format")

/-- Adds the table of a file. -/
def registerSource (e : Engine) (files : String → Option FileContent) (s : TableSource) :
    Except ExecutionError Engine :=
  if !s.path.endsWith (extension s.format) then .error (.queryFailed "a name of another format")
  else
    match files s.path with
    | none => .error (.queryFailed "no such file")
    | some content => (load s.format content).bind fun t => e.register s.name t

/-- Adds the tables of files, one after the other. -/
def registerAll (files : String → Option FileContent) (e : Engine) :
    List TableSource → Except ExecutionError Engine
  | [] => .ok e
  | s :: ss => (e.registerSource files s).bind fun e => registerAll files e ss

/-- The result of the statement that asks for the number 1. -/
def oneRow : ResultSet :=
  ⟨[⟨"Int64(1)", .kind .integer⟩],
    (BatchCursor.start [[.known ⟨.integer, #[some 1]⟩]]).toCursor⟩

/-- The result of a statement. -/
def select (e : Engine) : Statement → Except ExecutionError ResultSet
  | .one => .ok oneRow
  | .rowsOf name =>
    match e.table? name with
    | some t => t.select
    | none => .error (.queryFailed "no such table")

/-- The answer to a statement. -/
def answer (e : Engine) (sql : String) : Answer :=
  match Statement.read? sql with
  | none => .failure (.queryFailed "not a statement")
  | some s =>
    match e.select s with
    | .ok result => .rows result
    | .error failure => .failure failure

/-- The engine as an executor.  It gives a statement up with the request. -/
def executor (e : Engine) : Executor where
  answer := e.answer
  interrupted _ := .failure .cancelled

end Engine

end SeriesQuery
