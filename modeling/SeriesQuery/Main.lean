import Std.Time.DateTime.Timestamp
import SeriesQuery.Command.Run

/-!
# The program

Reads what a command needs of the world, runs it and reports how it ended.  Requests
are answered by `Service.reply`; what listens for them is not part of this program.
-/

namespace SeriesQuery.Program

/-- What is said where help is asked for. -/
def helpText : String :=
  "Time series over SQL, with macros for time\n\n" ++
    "Usage: sqlseries [OPTIONS] [COMMAND]\n\n" ++
    "Commands: expand, serve, config, validate, version\n" ++
    "Options: --config <CONFIG>, -v, --verbose, -q, --quiet, -h, --help, -V, --version\n"

/-- What is said where the arguments are wrong. -/
def usageText : String := "error: unexpected or missing arguments, try '--help'\n"

/-- The text of a file, if it can be read. -/
def readText? (path : String) : IO (Option String) := do
  try
    some <$> IO.FS.readFile path
  catch _ => return none

/-- The text of a file in the working directory or the nearest directory above it
that has it. -/
def findText? (path : String) : IO (Option String) := do
  let directory ← IO.currentDir
  for level in List.range directory.components.length do
    if let some text ← readText? (String.join (List.replicate level "../") ++ path) then
      return some text
  return none

/-- The variables of a process. -/
def environmentOf (text : String) : List (String × String) :=
  (Text.splitOn '\x00' text.toList).filterMap fun cs =>
    match cs.dropWhile (· != '=') with
    | _ :: value => some (String.ofList (cs.takeWhile (· != '=')), String.ofList value)
    | [] => none

/-- The environment variables. -/
def environment : IO (List (String × String)) := do
  return environmentOf ((← readText? "/proc/self/environ").getD "")

/-- The time. -/
def now : IO Instant := do
  let nanos := (← Std.Time.Timestamp.now).toNanosecondsSinceUnixEpoch.val
  match Instant.ofNanos? nanos with
  | some t => return t
  | none => throw (IO.userError "the clock is out of range")

/-- The files of tables that can be read as texts. -/
def tableFiles (tables : List TableSource) : IO (List (String × FileContent)) := do
  let mut files := []
  for t in tables do
    if let some text ← readText? t.path then
      files := (t.path, FileContent.text text) :: files
  return files

/-- What an invocation finds. -/
def surroundings (i : Invocation) : IO Surroundings := do
  let path := i.configPath.getD CommandLine.usualConfigPath
  let file ← findText? path
  let environment ← environment
  let tables :=
    match Configuration.load file environment with
    | .ok c => c.tables
    | .error _ => []
  let files ← tableFiles tables
  return {
    configFile := fun p => if p = path then file else none
    tableFile := fun p => (files.find? fun f => f.1 == p).map (·.2)
    environment := environment
    now := ← now }

/-- Reports how a command ended. -/
def finish : CommandOutcome → IO UInt32
  | .done output => do
    IO.print output
    return 0
  | .failed e => do
    IO.eprint e.report
    return 1
  | .fault message => do
    IO.eprintln message
    return 101
  | .serving address _ => do
    IO.eprintln ("Error: nothing listens on " ++ address)
    return 1

/-- Reports how the reading of the arguments ended. -/
def endReading : ArgumentEnd → IO UInt32
  | .usage => do
    IO.eprint usageText
    return 2
  | .help => do
    IO.print helpText
    return 0
  | .version => do
    IO.print CommandLine.versionLine
    return 0
  | .fault message => do
    IO.eprintln message
    return 101

end SeriesQuery.Program

open SeriesQuery in
def main (args : List String) : IO UInt32 := do
  match CommandLine.read args with
  | .error e => Program.endReading e
  | .ok i => Program.finish (CommandLine.run i (← Program.surroundings i))
