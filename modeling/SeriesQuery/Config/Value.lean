/-!
# Values of a configuration

A configuration is put together from layers.  A layer is a value: a text, a number,
a truth value, a sequence, or a table of values by name.  A later layer is merged
into an earlier one: tables are merged name by name, and any other value replaces
what was there.
-/

namespace SeriesQuery

/-- A value of a layer. -/
inductive ConfigValue where
  | text (s : String)
  /-- A text that was given as a character. -/
  | character (c : Char)
  /-- A number, as it is written. -/
  | number (lexeme : String)
  | flag (b : Bool)
  /-- A sequence. -/
  | list (items : List ConfigValue)
  /-- Values by name, each name once. -/
  | table (entries : List (String × ConfigValue))

namespace ConfigValue

def entry? (entries : List (String × ConfigValue)) (name : String) : Option ConfigValue :=
  (entries.find? fun e => e.1 == name).map (·.2)

/-- Gives a name a value, in the place of the one it had. -/
def put (name : String) (v : ConfigValue) :
    List (String × ConfigValue) → List (String × ConfigValue)
  | [] => [(name, v)]
  | e :: es => if e.1 = name then (name, v) :: es else e :: put name v es

/-- The least name of entries, and the entries' values do not matter. -/
def leastName : List (String × ConfigValue) → Option String
  | [] => none
  | e :: es =>
    match leastName es with
    | none => some e.1
    | some name => some (if e.1 < name then e.1 else name)

mutual

/-- Merges a value into an earlier one. -/
def merge (earlier : ConfigValue) : ConfigValue → ConfigValue
  | .table entries =>
    match earlier with
    | .table old => .table (mergeEntries old entries)
    | _ => .table entries
  | v => v

/-- Merges entries into earlier ones. -/
def mergeEntries (earlier : List (String × ConfigValue)) :
    List (String × ConfigValue) → List (String × ConfigValue)
  | [] => earlier
  | (name, v) :: rest =>
    let merged :=
      match entry? earlier name with
      | some old => merge old v
      | none => v
    mergeEntries (put name merged earlier) rest

end

/-- A value under a path of names. -/
def nested : List String → ConfigValue → ConfigValue
  | [], v => v
  | name :: names, v => .table [(name, nested names v)]

end ConfigValue

end SeriesQuery
