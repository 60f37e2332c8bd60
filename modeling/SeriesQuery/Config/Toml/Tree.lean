import SeriesQuery.Config.Value

/-!
# The tables of a TOML document

A table comes about in one of three ways: by a header of its own, because the path
of a header leads through it, or because a key with dots leads through it.  A header
may give a table that so far was only led through by headers, and no other that
exists already.  A key with dots may lead through tables that came about by such
keys, and through no others.  A path of a header leads through a sequence of tables
into the last of them.
-/

namespace SeriesQuery.Toml

/-- How a table came about. -/
inductive Origin where
  /-- By a header of its own, or as a value. -/
  | header
  /-- A path of a header led through it. -/
  | implied
  /-- A key with dots led through it. -/
  | dotted
deriving DecidableEq

/-- What stands under a key. -/
inductive Node where
  /-- A value. -/
  | value (v : ConfigValue)
  /-- A table. -/
  | table (origin : Origin) (entries : List (String × Node))
  /-- A sequence of tables, the last of them first. -/
  | tables (items : List (List (String × Node)))

/-- What stands under the keys of a table. -/
abbrev Entries := List (String × Node)

namespace Entries

/-- What stands under a key. -/
def node? (es : Entries) (name : String) : Option Node := (es.find? fun e => e.1 == name).map (·.2)

/-- Puts something under a key, in the place of what was there. -/
def put (name : String) (n : Node) : Entries → Entries
  | [] => [(name, n)]
  | e :: es => if e.1 = name then (name, n) :: es else e :: put name n es

/-- Changes the table at the end of a path, and makes the tables on the way that
there are not.  `byKey` says whether the path is that of a key with dots. -/
def alter (byKey : Bool) (change : Origin → Entries → Option Entries) :
    List String → Origin → Entries → Option Entries
  | [], origin, es => change origin es
  | name :: path, _, es =>
    match es.node? name with
    | none =>
      let origin := if byKey then Origin.dotted else .implied
      (alter byKey change path origin []).map fun sub => es.put name (.table origin sub)
    | some (.table origin sub) =>
      if byKey ∧ origin = .header then none
      else (alter byKey change path origin sub).map fun sub => es.put name (.table origin sub)
    | some (.tables (last :: items)) =>
      (alter byKey change path .header last).map fun last => es.put name (.tables (last :: items))
    | some (.tables []) => none
    | some (.value _) => none

/-- Puts a value under a new key of a table. -/
def addValue (path : List String) (v : ConfigValue) (es : Entries) : Option Entries :=
  match path.getLast? with
  | none => none
  | some name =>
    let way := path.dropLast
    alter true
      (fun origin sub =>
        if (way = [] ∨ origin = .dotted) ∧ (sub.node? name).isNone then some (sub.put name (.value v))
        else none)
      way .header es

/-- Puts values under new keys of a table, one after the other. -/
def addValues (pairs : List (List String × ConfigValue)) (es : Entries) : Option Entries :=
  pairs.foldlM (fun es p => es.addValue p.1 p.2) es

mutual

/-- What stands under a key, as a value. -/
def valueOf : Node → ConfigValue
  | .value v => v
  | .table _ es => .table (valuesOf es)
  | .tables items => .list (tablesOf items).reverse

/-- The values of a table. -/
def valuesOf : List (String × Node) → List (String × ConfigValue)
  | [] => []
  | (name, n) :: es => (name, valueOf n) :: valuesOf es

/-- The values of tables. -/
def tablesOf : List (List (String × Node)) → List ConfigValue
  | [] => []
  | es :: rest => .table (valuesOf es) :: tablesOf rest

end

end Entries

/-! ## Sections -/

/-- What a section is headed by. -/
inductive Header where
  /-- Nothing: it is the first. -/
  | none
  /-- A table. -/
  | table (path : List String)
  /-- A further table of a sequence. -/
  | item (path : List String)

/-- A header and the values below it. -/
structure Section where
  header : Header
  /-- The values with their keys. -/
  pairs : List (List String × ConfigValue)

namespace Section

/-- Adds a table to those under a key. -/
def addTable (name : String) (pairs : List (List String × ConfigValue)) (es : Entries) :
    Option Entries :=
  match es.node? name with
  | none => (Entries.addValues pairs []).map fun sub => es.put name (.table .header sub)
  | some (.table .implied sub) =>
    (Entries.addValues pairs sub).map fun sub => es.put name (.table .header sub)
  | some _ => none

/-- Adds a table to a sequence of them. -/
def addItem (name : String) (pairs : List (List String × ConfigValue)) (es : Entries) :
    Option Entries :=
  match es.node? name with
  | none => (Entries.addValues pairs []).map fun sub => es.put name (.tables [sub])
  | some (.tables items) =>
    (Entries.addValues pairs []).map fun sub => es.put name (.tables (sub :: items))
  | some _ => none

/-- Adds a section to a document. -/
def addTo (es : Entries) (s : Section) : Option Entries :=
  match s.header with
  | .none => Entries.addValues s.pairs es
  | .table path =>
    path.getLast?.bind fun name =>
      es.alter false (fun _ sub => addTable name s.pairs sub) path.dropLast .header
  | .item path =>
    path.getLast?.bind fun name =>
      es.alter false (fun _ sub => addItem name s.pairs sub) path.dropLast .header

end Section

end SeriesQuery.Toml
