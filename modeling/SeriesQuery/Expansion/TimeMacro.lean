/-!
# The time macros

Five macros are known, each with the arguments it requires and a number of
further ones it admits.
-/

namespace SeriesQuery

/-- A known macro. -/
inductive TimeMacro where
  /-- A column as a time. -/
  | column
  /-- The start of the range. -/
  | rangeStart
  /-- The end of the range. -/
  | rangeStop
  /-- The condition that a column lies in the range. -/
  | filter
  /-- The bucket of a column's time. -/
  | bucket
deriving DecidableEq

namespace TimeMacro

def all : List TimeMacro := [.column, .rangeStart, .rangeStop, .filter, .bucket]

/-- The name a macro is called by. -/
def name : TimeMacro → String
  | .column => "__time"
  | .rangeStart => "__timeFrom"
  | .rangeStop => "__timeTo"
  | .filter => "__timeFilter"
  | .bucket => "__timeGroup"

/-- What the required arguments are. -/
def required : TimeMacro → List String
  | .column => ["time column"]
  | .rangeStart => []
  | .rangeStop => []
  | .filter => ["time column"]
  | .bucket => ["time column", "interval"]

/-- How many arguments may follow the required ones. -/
def optional : TimeMacro → Nat
  | .bucket => 1
  | _ => 0

/-- Whether a macro takes so many arguments. -/
def takes (m : TimeMacro) (count : Nat) : Bool :=
  m.required.length ≤ count && count ≤ m.required.length + m.optional

/-- How many arguments a macro takes, in words. -/
def arity (m : TimeMacro) : String :=
  if m.optional = 0 then toString m.required.length
  else toString m.required.length ++ " to " ++ toString (m.required.length + m.optional)

def ofName? (name : List Char) : Option TimeMacro :=
  all.find? fun m => m.name.toList == name

theorem ofName?_eq_some_iff {name : List Char} {m : TimeMacro} :
    ofName? name = some m ↔ name = m.name.toList := by
  constructor
  · intro h
    have hname := List.find?_some h
    exact (beq_iff_eq.mp hname).symm
  · rintro rfl
    cases m <;> rfl

end TimeMacro

end SeriesQuery
