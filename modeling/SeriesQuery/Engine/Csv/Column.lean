import SeriesQuery.Engine.Csv.Records
import SeriesQuery.Engine.Csv.Timestamp
import SeriesQuery.Engine.Table

/-!
# Tables of text with commas

The first record names the columns, and every other has as many fields.  A column
has the type that all its fields have which are not empty: truth values, whole
numbers, numbers, dates or timestamps, and texts otherwise.  Whole numbers among
numbers are numbers, dates among timestamps are timestamps, and timestamps are
counted in the finest unit that occurs.  An empty field is null.
-/

namespace SeriesQuery.Csv

/-! ## Types of fields -/

/-- What a field looks like. -/
inductive FieldClass where
  | boolean
  /-- A whole number of 64 signed bits. -/
  | whole
  /-- A number with a point or an exponent. -/
  | fraction
  | date
  | timestamp (unit : TimeUnit)
  /-- Something else. -/
  | text
deriving DecidableEq

/-- A field without its minus sign. -/
def unsigned : List Char → List Char
  | '-' :: cs => cs
  | cs => cs

/-- Whether a field is a numeral without a plus sign and without words. -/
def isNumeral (field : List Char) : Bool := (Numeral.readDecimal? (unsigned field)).isSome

/-- Whether a field is a whole numeral. -/
def isWhole (field : List Char) : Bool := unsigned field != [] && (unsigned field).all Char.isDigit

/-- What a field looks like. -/
def FieldClass.of (field : List Char) : FieldClass :=
  if Numeral.lower field = "true".toList ∨ Numeral.lower field = "false".toList then .boolean
  else if isWhole field then if (Digits.readInt64? field).isSome then .whole else .text
  else if isNumeral field then .fraction
  else
    match date? field with
    | some (_, []) => .date
    | _ => (TimestampText.read? field).elim .text fun t => .timestamp t.unit

/-- The finer of two units. -/
def finer (u v : TimeUnit) : TimeUnit := if u.nanos < v.nanos then u else v

/-- What fields of both classes have in common. -/
def FieldClass.join : FieldClass → FieldClass → FieldClass
  | .whole, .fraction => .fraction
  | .fraction, .whole => .fraction
  | .date, .timestamp u => .timestamp u
  | .timestamp u, .date => .timestamp u
  | .timestamp u, .timestamp v => .timestamp (finer u v)
  | a, b => if a = b then a else .text

/-- The name of the type of dates, which have no kind. -/
def dateName : String := "Date32"

/-- The type of a column with fields of a class. -/
def FieldClass.storage : FieldClass → Storage
  | .boolean => .boolean
  | .whole => .whole
  | .fraction => .double
  | .date => .foreign dateName
  | .timestamp unit => .timestamp unit
  | .text => .text

/-- The type of a column.  Without rows it is that of texts, and without a field
that is not empty it is the one whose cells hold nothing. -/
def columnStorage (fields : List (List Char)) : Storage :=
  if fields = [] then .text
  else
    match (fields.filter (· != [])).map FieldClass.of with
    | [] => .void
    | c :: cs => (cs.foldl FieldClass.join c).storage

/-! ## Reading fields -/

/-- A timestamp in a unit.  One counted in nanoseconds has to fit 64 signed bits. -/
def readTimestamp? (unit : TimeUnit) (field : List Char) : Option Int :=
  let count :=
    match date? field with
    | some (date, []) =>
      if date.Exists then some (date.toDays * secondsPerDay * (nanosPerSecond / unit.nanos)) else none
    | _ => (TimestampText.read? field).bind (TimestampText.count? unit)
  if unit = .nano then (count.bind Digits.toInt64?).map Int64.toInt else count

/-- The value of a field that is not empty, as one of a type. -/
def readField? : (s : Storage) → List Char → Option s.Value
  | .text, field => some (String.ofList field)
  | .whole, field => Digits.readInt? field
  | .double, field => Numeral.read? field
  | .boolean, field => some (Numeral.lower field == "true".toList)
  | .timestamp unit, field => readTimestamp? unit field
  | .foreign _, field => (date? field).bind fun d => if d.1.Exists then some () else none
  | _, _ => none

/-- The cells of a column, if all its fields can be read. -/
def readColumn? (s : Storage) (fields : List (List Char)) : Option (List (Option s.Value)) :=
  fields.mapM fun field => if field = [] then some none else (readField? s field).map some

/-- A column, if all its fields can be read. -/
def readVector? (fields : List (List Char)) : Option Vector :=
  (readColumn? (columnStorage fields) fields).map (Vector.ofStored (columnStorage fields))

/-! ## Tables -/

/-- The fields of a column. -/
def columnFields (rows : List Record) (index : Nat) : List (List Char) :=
  rows.map fun row => row.getD index []

/-- The table of records below a header. -/
def tableOf (header : Record) (rows : List Record) : StoredTable :=
  let columns := (List.range header.length).map (columnFields rows)
  { heads := (header.zip columns).map fun c =>
      ⟨String.ofList c.1, (columnStorage c.2).declared⟩
    content :=
      match columns.mapM readVector? with
      | some batch => .ok [batch]
      | none => .error (.queryFailed "a field does not have the form of its column") }

/-- The table of a text, unless a record has more or fewer fields than the first. -/
def readTable? (text : List Char) : Option StoredTable :=
  match records text with
  | [] => some ⟨[], .ok []⟩
  | header :: rows =>
    if rows.all fun row => row.length == header.length then some (tableOf header rows) else none

end SeriesQuery.Csv
