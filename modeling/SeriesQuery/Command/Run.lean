import SeriesQuery.Command.Arguments
import SeriesQuery.Config.Reader
import SeriesQuery.Engine.Engine
import SeriesQuery.Service.Http

/-!
# Running a command

A command reads the configuration first, and then does its work.  What it needs of
the world is given to it: the files, the environment variables and the time.

An expansion that is given no end ends now, and one that is given no start starts
six hours before its end.  Those six hours are taken off even where a start is
given, and an end that leaves no room for them is a fault.

Before requests are served the configuration is checked, the tables are registered
and the address is read.
-/

namespace SeriesQuery

/-- What a command finds. -/
structure Surroundings where
  /-- The text of a file that may hold the configuration. -/
  configFile : String → Option String
  /-- The content of a file that may hold a table. -/
  tableFile : String → Option FileContent
  /-- The environment variables, in order. -/
  environment : List (String × String)
  now : Instant

/-- Why an address cannot be listened on. -/
inductive AddressError where
  /-- It has no port. -/
  | noPort
  /-- Its port is no number of 16 bits. -/
  | invalidPort
deriving DecidableEq

def AddressError.message : AddressError → String
  | .noPort => "invalid socket address"
  | .invalidPort => "invalid port value"

/-- Why a command failed. -/
inductive CommandError where
  /-- The configuration could not be read. -/
  | configuration (e : ConfigError)
  /-- The query could not be expanded. -/
  | expansion (e : ExpansionError)
  /-- The configuration is not usable. -/
  | defect (d : ConfigurationDefect)
  /-- A table could not be registered. -/
  | tables (e : ExecutionError)
  /-- The address cannot be listened on. -/
  | address (e : AddressError)
deriving DecidableEq

namespace CommandError

def title : CommandError → String
  | .configuration _ => "Failed to load configuration"
  | .expansion _ => "Failed to expand query macros"
  | .defect d => d.message
  | .tables _ => "Failed to register tables"
  | .address e => e.message

/-- The causes of an error, the nearest first. -/
def causes : CommandError → List String
  | .configuration e => [e.kind.name ++ " for key \"" ++ ".".intercalate e.path ++ "\""]
  | .expansion e => [(QueryError.expansion e).message, e.message]
  | .defect _ => []
  | .tables e => [e.message]
  | .address _ => []

/-- A text whose further lines start with blanks. -/
def indented (margin : String) (text : String) : String :=
  ("\n" ++ margin).intercalate ((Text.splitOn '\n' text.toList).map String.ofList)

/-- A cause with its number. -/
def numbered (number : Nat) (text : String) : String :=
  "    " ++ toString number ++ ": " ++ indented "       " text

/-- Causes with their numbers. -/
def numberedFrom (number : Nat) : List String → List String
  | [] => []
  | text :: texts => numbered number text :: numberedFrom (number + 1) texts

/-- The lines of causes, numbered if there are several. -/
def causeLines : List String → List String
  | [text] => ["    " ++ indented "    " text]
  | texts => numberedFrom 0 texts

/-- An error with its causes, as it is reported. -/
def report (e : CommandError) : String :=
  let behind :=
    if e.causes = [] then "" else "\n\nCaused by:\n" ++ "\n".intercalate (causeLines e.causes)
  "Error: " ++ e.title ++ behind ++ "\n"

end CommandError

/-- How a command ends. -/
inductive CommandOutcome where
  /-- It has written this. -/
  | done (output : String)
  /-- It has failed. -/
  | failed (e : CommandError)
  /-- It ends with a fault. -/
  | fault (message : String)
  /-- It goes on to serve requests. -/
  | serving (address : String) (service : Service)

namespace CommandLine

/-! ## The expansion of a query -/

/-- How far before its end a range starts. -/
def usualRange : Nat := 6 * 3600

/-- A policy, in the answer of an expansion. -/
def policyText : FillPolicy → String
  | .null => "Null"
  | .previous => "Previous"
  | .constant x => "Value(" ++ String.ofList (Layout.tagged.write x) ++ ")"

/-- The answer of an expansion. -/
def expansionText (sql : String) (context : ExpansionContext) : String :=
  sql ++ "\n-- interval: " ++ context.interval.describe ++ "\n-- fill: " ++
    (context.fill.map policyText).getD "none" ++ "\n"

/-- What is said where the range would start too early. -/
def rangeFault : String := "`DateTime - TimeDelta` overflowed"

/-- Expands a query. -/
def expand (a : ExpandArguments) (c : Configuration) (now : Instant) : CommandOutcome :=
  let stop := a.stop.getD now
  match stop.before? usualRange with
  | none => .fault rangeFault
  | some sixHoursBefore =>
    let range : TimeRange := ⟨a.start.getD sixHoursBefore, stop⟩
    match Expansion.expand (a.dialect.getD c.dialect) (.fresh range a.interval) a.query with
    | .ok (sql, context) => .done (expansionText sql context)
    | .error e =>
      match QueryError.ofExpansion e with
      | .fault message => .fault message
      | _ => .failed (.expansion e)

/-! ## The configuration -/

/-- A table in the list of tables. -/
def tableLine (t : TableSource) : String :=
  "\n  " ++ t.name ++ " (" ++ t.format.title ++ "): " ++ t.path

/-- A configuration for a reader. -/
def configText (c : Configuration) : String :=
  "sqlseries Configuration:\n========================\nListen address: " ++ c.address ++
    "\nSQL dialect: " ++ c.dialect.title ++ "\nQuery timeout: " ++ c.timeout.describe ++ "\nTables:" ++
    (if c.tables = [] then " none" else String.join (c.tables.map tableLine)) ++ "\n"

/-! ## The versions -/

/-- The version of the program. -/
def versionLine : String := "sqlseries 0.1.0\n"

/-- The version that the command tells. -/
def versionInfo : String := "common 0.1.0 (1.85.0)\n"

/-! ## Serving -/

/-- Checks whether an address ends in a port. -/
def checkAddress (address : String) : Except AddressError Unit :=
  match address.toList.reverse.span (· != ':') with
  | (_, []) => .error .noPort
  | (port, _) =>
    let digits := (match port.reverse with
      | '+' :: ds => ds
      | ds => ds)
    if digits ≠ [] ∧ digits.all Char.isDigit ∧ Digits.value digits < 65536 then .ok ()
    else .error .invalidPort

/-- Does what comes before requests are served. -/
def serve (c : Configuration) (s : Surroundings) : CommandOutcome :=
  match c.check with
  | .error d => .failed (.defect d)
  | .ok () =>
    match Engine.registerAll s.tableFile .empty c.tables with
    | .error e => .failed (.tables e)
    | .ok engine =>
      match checkAddress c.address with
      | .error e => .failed (.address e)
      | .ok () => .serving c.address ⟨engine.executor, c.dialect, c.timeout⟩

/-! ## Commands -/

/-- The usual file of the configuration. -/
def usualConfigPath : String := "sqlseries.toml"

/-- Runs a command with its configuration. -/
def runWith (c : Configuration) (s : Surroundings) : Command → CommandOutcome
  | .expand arguments => expand arguments c s.now
  | .serve => serve c s
  | .config json => .done (if json then c.toJson.pretty ++ "\n" else configText c)
  | .validate =>
    match c.check with
    | .ok () => .done ""
    | .error d => .failed (.defect d)
  | .version => .done versionInfo

def run (i : Invocation) (s : Surroundings) : CommandOutcome :=
  match Configuration.load (s.configFile (i.configPath.getD usualConfigPath)) s.environment with
  | .error ⟨.fault message, _⟩ => .fault message
  | .error e => .failed (.configuration e)
  | .ok c => runWith c s i.command

end CommandLine

end SeriesQuery
