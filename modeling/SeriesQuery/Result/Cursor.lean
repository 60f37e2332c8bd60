import SeriesQuery.Result.Scalar

/-!
# Cursors

A result is read row by row.  It declares its columns first, each with a kind or
with the name of a type that is not supported.  Every fetch then writes a row into
a buffer with a slot for each column.  A row writes as many slots as it has values,
as far as there are slots, and leaves the others as they were.

A cursor is the rows that are still to come and how it goes on after the last: it
reports the end, or it fails, and then does so at every further fetch.
-/

namespace SeriesQuery

/-- Why a statement or the reading of its result failed. -/
inductive ExecutionError where
  /-- The engine refused or aborted the statement. -/
  | queryFailed (reason : String)
  /-- A column could not be brought to its kind. -/
  | normalize (reason : String)
  /-- The request was given up. -/
  | cancelled
  /-- A row could not be read. -/
  | scan (reason : String)
  /-- Another reason. -/
  | other (reason : String)
deriving DecidableEq

def ExecutionError.message : ExecutionError → String
  | .queryFailed reason => "Query failed: " ++ reason
  | .normalize reason => "Failed to normalize result column: " ++ reason
  | .cancelled => "Query was cancelled"
  | .scan reason => "Failed to scan row: " ++ reason
  | .other reason => reason

/-- What a column of a result declares. -/
inductive DeclaredKind where
  /-- A kind. -/
  | kind (k : Kind)
  /-- A type that is not supported, by its name. -/
  | unsupported (name : String)
deriving DecidableEq

/-- The head of a column of a result. -/
structure ColumnHead where
  name : String
  /-- The declared kind. -/
  kind : DeclaredKind
deriving DecidableEq

/-- The values that a row writes, from the first slot on. -/
abbrev Row := List Scalar

/-- Writes a row into slots. -/
def Row.write : Row → List Scalar → List Scalar
  | v :: vs, _ :: slots => v :: Row.write vs slots
  | _, slots => slots

/-- The rest of a result. -/
structure Cursor where
  /-- The rows to come. -/
  pending : List Row
  /-- The error after the last row; without one the end is reported. -/
  failure : Option ExecutionError
deriving DecidableEq

namespace Cursor

/-- Fetches a row into slots: gives the slots and the cursor after it, or nothing
at the end. -/
def fetch (c : Cursor) (slots : List Scalar) : Except ExecutionError (Option (List Scalar × Cursor)) :=
  match c.pending, c.failure with
  | row :: rows, failure => .ok (some (row.write slots, ⟨rows, failure⟩))
  | [], none => .ok none
  | [], some e => .error e

/-- A cursor over rows that fails once `count` of them are delivered, if there
are so many. -/
def failingAfter (rows : List Row) (count : Nat) (e : ExecutionError) : Cursor :=
  if count ≤ rows.length then ⟨rows.take count, some e⟩ else ⟨rows, none⟩

/-- The slots after fetching all rows into the same buffer. -/
def drain (c : Cursor) (slots : List Scalar) : List Scalar :=
  c.pending.foldl (fun slots row => row.write slots) slots

end Cursor

/-- A result: the heads of its columns and a cursor before its first row. -/
structure ResultSet where
  columns : List ColumnHead
  cursor : Cursor
deriving DecidableEq

/-- Slots that hold nothing. -/
def blankSlots (count : Nat) : List Scalar := List.replicate count .null

end SeriesQuery
