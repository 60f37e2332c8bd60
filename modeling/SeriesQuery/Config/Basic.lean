import SeriesQuery.Expansion.Dialect
import SeriesQuery.Json.Basic
import SeriesQuery.Time.Span

/-!
# The configuration

What the service listens on, how it writes statements, how long it waits for them
and which files it offers as tables.

A configuration is usable if its address is not empty, its timeout not zero, and
its tables have names and paths, the names all different.  `Configuration.check`
reports the first of these that does not hold, in this order and table by table.
-/

namespace SeriesQuery

/-- The format of a file. -/
inductive FileFormat where
  /-- Text with commas. -/
  | csv
  /-- Columns. -/
  | parquet
deriving DecidableEq

namespace FileFormat

def all : List FileFormat := [.csv, .parquet]

def name : FileFormat → String
  | .csv => "csv"
  | .parquet => "parquet"

/-- A format in a list of tables. -/
def title : FileFormat → String
  | .csv => "Csv"
  | .parquet => "Parquet"

end FileFormat

namespace Dialect

def all : List Dialect := [.snowflake, .dataFusion]

def name : Dialect → String
  | .snowflake => "snowflake"
  | .dataFusion => "datafusion"

/-- A dialect as a title. -/
def title : Dialect → String
  | .snowflake => "Snowflake"
  | .dataFusion => "DataFusion"

end Dialect

/-- A file that is offered as a table. -/
structure TableSource where
  name : String
  path : String
  format : FileFormat
deriving DecidableEq

/-- A configuration. -/
structure Configuration where
  /-- The address to listen on. -/
  address : String
  dialect : Dialect
  /-- How long the queries of a request may take. -/
  timeout : Span
  tables : List TableSource
deriving DecidableEq

/-- Why a configuration is not usable. -/
inductive ConfigurationDefect where
  | noAddress
  | noTimeout
  | noTableName
  | noTablePath (table : String)
  /-- A name is that of an earlier table. -/
  | repeatedTable (table : String)
deriving DecidableEq

def ConfigurationDefect.message : ConfigurationDefect → String
  | .noAddress => "Listen address cannot be empty"
  | .noTimeout => "Query timeout must be greater than zero"
  | .noTableName => "Table name cannot be empty"
  | .noTablePath table => "Path of table '" ++ table ++ "' cannot be empty"
  | .repeatedTable table => "Table '" ++ table ++ "' is configured more than once"

namespace Configuration

/-- Checks tables that come after others with the names `seen`. -/
def checkTables (seen : List String) : List TableSource → Except ConfigurationDefect Unit
  | [] => .ok ()
  | t :: ts =>
    if t.name = "" then .error .noTableName
    else if t.path = "" then .error (.noTablePath t.name)
    else if t.name ∈ seen then .error (.repeatedTable t.name)
    else checkTables (t.name :: seen) ts

/-- Checks whether a configuration is usable. -/
def check (c : Configuration) : Except ConfigurationDefect Unit :=
  if c.address = "" then .error .noAddress
  else if c.timeout.isZero then .error .noTimeout
  else checkTables [] c.tables

def tableToJson (t : TableSource) : Json :=
  .object [("name", .string t.name), ("path", .string t.path), ("format", .string t.format.name)]

def toJson (c : Configuration) : Json :=
  .object [("server", .object [("addr", .string c.address)]),
    ("query", .object [("dialect", .string c.dialect.name),
      ("timeout", .string c.timeout.describe)]),
    ("tables", .array (c.tables.map tableToJson))]

end Configuration

end SeriesQuery
