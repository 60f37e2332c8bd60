import SeriesQuery.Config.Basic
import SeriesQuery.Config.Environment
import SeriesQuery.Config.Toml.Document
import SeriesQuery.Time.Span.Reader

/-!
# Reading a configuration

A configuration is read from three layers: what is usual, a file, and environment
variables.  A record is a table, of which unknown names are passed over, or a
sequence of its members in their order.

An error has a kind and the path of the value that it was found in.  A table is read
in the order of its names, and what is missing is noticed at its end; so of several
errors the one with the first name counts.
-/

namespace SeriesQuery

/-- The kinds of errors. -/
inductive ConfigErrorKind where
  /-- A file that is no TOML document. -/
  | unreadable
  /-- A value of the wrong type. -/
  | invalidType
  /-- A text that does not have the meaning that is asked for. -/
  | invalidValue
  /-- A sequence that is too short. -/
  | invalidLength
  /-- A text that is none of the names asked for. -/
  | unknownVariant
  /-- A member that is missing. -/
  | missingField
  /-- A fault in reading, with its text. -/
  | fault (message : String)
deriving DecidableEq

def ConfigErrorKind.name : ConfigErrorKind → String
  | .unreadable => "message"
  | .invalidType => "invalid-type"
  | .invalidValue => "invalid-value"
  | .invalidLength => "invalid-length"
  | .unknownVariant => "unknown-variant"
  | .missingField => "missing-field"
  | .fault _ => "fault"

/-- Why a configuration could not be read. -/
structure ConfigError where
  kind : ConfigErrorKind
  /-- The path of the value. -/
  path : List String
deriving DecidableEq

/-- Reading a value. -/
abbrev ConfigReader (α : Type) := ConfigValue → Except ConfigError α

namespace ConfigReader

/-! ## Values -/

/-- An error in the value itself. -/
def fail (kind : ConfigErrorKind) : Except ConfigError α := .error ⟨kind, []⟩

/-- Reads a value under a name. -/
def under (name : String) (read : ConfigReader α) : ConfigReader α := fun v =>
  match read v with
  | .ok a => .ok a
  | .error e => .error { e with path := name :: e.path }

def text : ConfigReader String
  | .text s => .ok s
  | .character c => .ok (String.singleton c)
  | _ => fail .invalidType

/-- Reads one of some values by its name, or by a table with the name.  As there is
nothing that could stand under the name, a table always fails. -/
def choice (options : List (String × α)) : ConfigReader α
  | .text s =>
    match options.find? fun o => o.1 == s with
    | some o => .ok o.2
    | none => fail .unknownVariant
  | .table entries =>
    match ConfigValue.leastName entries with
    | none => fail .invalidType
    | some name =>
      if options.any fun o => o.1 == name then under name (fun _ => fail .invalidType) (.table entries)
      else fail .unknownVariant
  | _ => fail .invalidType

def span : ConfigReader Span := fun v =>
  match text v with
  | .error e => .error e
  | .ok s =>
    match Span.read s.toList with
    | .ok t => .ok t
    | .error .carryOverflow => fail (.fault Span.ReadError.carryOverflow.message)
    | .error _ => fail .invalidValue

/-! ## Records -/

/-- Reads an entry of a table, if there is one. -/
def entry (entries : List (String × ConfigValue)) (name : String) (read : ConfigReader α) :
    Except ConfigError (Option α) :=
  match ConfigValue.entry? entries name with
  | some v => (under name read v).map some
  | none => .ok none

/-- What must not be missing. -/
def need (kind : ConfigErrorKind) : Option α → Except ConfigError α
  | some a => .ok a
  | none => fail kind

/-- Reads an item of a sequence, if there is one. -/
def item (items : List ConfigValue) (index : Nat) (read : ConfigReader α) :
    Except ConfigError (Option α) :=
  match items[index]? with
  | some v => (under (toString index) read v).map some
  | none => .ok none

/-- Reads all items of a sequence, from an index on. -/
def each (read : ConfigReader α) (index : Nat) : List ConfigValue → Except ConfigError (List α)
  | [] => .ok []
  | v :: vs => do .ok ((← under (toString index) read v) :: (← each read (index + 1) vs))

def sequence (read : ConfigReader α) : ConfigReader (List α)
  | .list items => each read 0 items
  | _ => fail .invalidType

def dialect : ConfigReader Dialect := choice (Dialect.all.map fun d => (d.name, d))

def format : ConfigReader FileFormat := choice (FileFormat.all.map fun f => (f.name, f))

/-- Reads the settings of the server. -/
def server : ConfigReader String
  | .table entries => do need .missingField (← entry entries "addr" text)
  | .list items => do need .invalidLength (← item items 0 text)
  | _ => fail .invalidType

/-- Reads the settings of queries. -/
def query : ConfigReader (Dialect × Span)
  | .table entries => do
    let d ← entry entries "dialect" dialect
    let t ← entry entries "timeout" span
    .ok (← need .missingField d, ← need .missingField t)
  | .list items => do
    let d ← need .invalidLength (← item items 0 dialect)
    .ok (d, ← need .invalidLength (← item items 1 span))
  | _ => fail .invalidType

/-- Reads a table of the configuration.  The format need not be given. -/
def table : ConfigReader TableSource
  | .table entries => do
    let f ← entry entries "format" format
    let name ← entry entries "name" text
    let path ← entry entries "path" text
    .ok ⟨← need .missingField name, ← need .missingField path, f.getD .csv⟩
  | .list items => do
    let name ← need .invalidLength (← item items 0 text)
    let path ← need .invalidLength (← item items 1 text)
    .ok ⟨name, path, (← item items 2 format).getD .csv⟩
  | _ => fail .invalidType

end ConfigReader

namespace Configuration

/-- The usual configuration. -/
def usual : Configuration := ⟨"0.0.0.0:3100", .dataFusion, .ofSeconds 30, []⟩

/-- The layer of the usual configuration. -/
def usualLayer : ConfigValue :=
  .table [("server", .table [("addr", .text usual.address)]),
    ("query", .table [("dialect", .text usual.dialect.name),
      ("timeout", .text usual.timeout.describe)]),
    ("tables", .list [])]

/-- Reads a configuration from its merged layers. -/
def ofValue : ConfigReader Configuration
  | .table entries => do
    let query ← ConfigReader.entry entries "query" ConfigReader.query
    let server ← ConfigReader.entry entries "server" ConfigReader.server
    let tables ← ConfigReader.entry entries "tables" (ConfigReader.sequence ConfigReader.table)
    let (dialect, timeout) := query.getD (usual.dialect, usual.timeout)
    .ok ⟨server.getD usual.address, dialect, timeout, tables.getD usual.tables⟩
  | _ => ConfigReader.fail .invalidType

/-- Reads a configuration from the text of a file, if there is one, and from
environment variables. -/
def load (file : Option String) (environment : List (String × String)) :
    Except ConfigError Configuration :=
  match file.elim (some (.table [])) Toml.read? with
  | none => .error ⟨.unreadable, []⟩
  | some v => ofValue ((usualLayer.merge v).merge (Environment.layer environment))

end Configuration

end SeriesQuery
