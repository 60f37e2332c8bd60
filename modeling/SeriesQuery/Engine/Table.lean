import SeriesQuery.Engine.Batch

/-!
# Stored tables

A stored table declares its columns.  Its rows are read only when they are asked
for, which may fail.
-/

namespace SeriesQuery

/-- A table of the engine. -/
structure StoredTable where
  /-- The heads of the columns. -/
  heads : List ColumnHead
  /-- The rows, if they can be read. -/
  content : Except ExecutionError (List Batch)

namespace StoredTable

/-- Whether a name stands in the list again behind it. -/
def repeats : List String → Bool
  | [] => false
  | s :: ss => ss.contains s || repeats ss

/-- All rows of a table, as a result.  Columns of one name cannot be told apart. -/
def select (t : StoredTable) : Except ExecutionError ResultSet :=
  if repeats (t.heads.map ColumnHead.name) then
    .error (.queryFailed "columns of the same name")
  else t.content.map fun batches => ⟨t.heads, (BatchCursor.start batches).toCursor⟩

end StoredTable

end SeriesQuery
