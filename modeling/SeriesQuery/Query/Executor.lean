import SeriesQuery.Result.Cursor

/-!
# Executors

An executor answers statements.  Its answer to a statement is a result, a failure,
a fault of its own, or that it waits until the request is given up.  It is a
function of the statement: what other queries ask does not change it.  An executor
that notices that the request has been given up may answer otherwise.

A fault comes in the place of an answer, or in the place of a row that is fetched.

The health check asks for the number 1 and looks at the first slot after the last
row.  The slots are not blanked between rows.
-/

namespace SeriesQuery

/-- What a fault carries. -/
inductive FaultPayload where
  | text (s : String)
  /-- Something that is no text. -/
  | other
deriving DecidableEq

def FaultPayload.message : FaultPayload → String
  | .text s => s
  | .other => "unknown panic"

/-- A fault of an executor. -/
inductive Fault where
  /-- It comes in the place of an answer. -/
  | answering (payload : FaultPayload)
  /-- It comes in the place of the row that follows some rows of a result. -/
  | fetching (columns : List ColumnHead) (rows : List Row) (payload : FaultPayload)
deriving DecidableEq

/-- A text alone is a fault in the place of an answer. -/
instance : Coe String Fault := ⟨fun s => .answering (.text s)⟩

def Fault.message : Fault → String
  | .answering payload => payload.message
  | .fetching _ _ payload => payload.message

/-- What an executor answers to a statement. -/
inductive Answer where
  | rows (result : ResultSet)
  | failure (e : ExecutionError)
  /-- A fault of the executor. -/
  | fault (f : Fault)
  /-- Nothing, until the request is given up. -/
  | waiting
deriving DecidableEq

/-- The answer when the request has been given up: an executor that waits then
says so. -/
def Answer.given (cancelled : Bool) : Answer → Answer
  | .waiting => if cancelled then .failure .cancelled else .waiting
  | a => a

/-- Something that answers statements. -/
structure Executor where
  /-- The answer to a statement. -/
  answer : String → Answer
  /-- The answer to a statement when the executor notices that the request has
  been given up. -/
  interrupted : String → Answer := fun sql => (answer sql).given true

/-- The answer to a statement. -/
def Executor.reply (x : Executor) (noticed : Bool) (sql : String) : Answer :=
  if noticed then x.interrupted sql else x.answer sql

/-- A table of prepared answers by a key. -/
abbrev PreparedAnswers := List (String × Answer)

/-- Whether a text occurs in another. -/
def occursIn (key : List Char) : List Char → Bool
  | [] => key.isEmpty
  | c :: cs => key.isPrefixOf (c :: cs) || occursIn key cs

/-- Answers with the first prepared answer whose key occurs in the statement. -/
def Executor.prepared (answers : PreparedAnswers) : Executor where
  answer sql :=
    match answers.find? fun a => occursIn a.1.toList sql.toList with
    | some a => a.2
    | none => .failure (.other ("no canned response for [" ++ sql ++ "]"))

namespace Health

/-- The statement of the health check. -/
def statement : String := "SELECT 1"

/-- Judges the first slot after the last row, if there was a row and a slot. -/
def judge : Option Scalar → Except ExecutionError Unit
  | some (.int 1) => .ok ()
  | some other => .error (.other ("failed to get 1: got [" ++ other.text ++ "]"))
  | none => .error (.other "failed to get 1: no rows returned")

/-- Judges the result of the statement. -/
def check (result : ResultSet) : Except ExecutionError Unit :=
  match result.cursor.failure with
  | some e => .error e
  | none =>
    if result.cursor.pending = [] then judge none
    else judge (result.cursor.drain (blankSlots result.columns.length)).head?

end Health

end SeriesQuery
