import SeriesQuery.Config.Basic
import SeriesQuery.Time.Rfc3339
import SeriesQuery.Time.Span.Reader

/-!
# Arguments of the command line

Arguments are options, and at most one name of a command, which may have options of
its own behind it.  The general options may stand before the command and behind it.
An option with a value has it behind an equals sign or in the next argument, which
then must not look like an option.  No option may be given twice in one place.

Arguments are read from left to right.  The first that is wrong, or that asks for
help or for the version, ends the reading.
-/

namespace SeriesQuery

/-- What the reading of arguments may end with. -/
inductive ArgumentEnd where
  /-- The arguments are wrong. -/
  | usage
  | help
  | version
  /-- A fault in reading a value, with its text. -/
  | fault (message : String)
deriving DecidableEq

/-- What a query is to be expanded with. -/
structure ExpandArguments where
  query : String
  start : Option Instant
  stop : Option Instant
  interval : Span
  /-- The dialect, if it is not the configured one. -/
  dialect : Option Dialect

/-- A command. -/
inductive Command where
  | expand (arguments : ExpandArguments)
  | serve
  | config (json : Bool)
  | validate
  | version

/-- A command with the general options. -/
structure Invocation where
  /-- The file of the configuration, if it is not the usual one. -/
  configPath : Option String
  /-- Whether more is to be logged. -/
  verbose : Bool
  /-- Whether less is to be logged. -/
  quiet : Bool
  command : Command

namespace CommandLine

/-! ## Options -/

/-- An option. -/
structure OptionSpec where
  /-- The name, behind two hyphens. -/
  long : String
  /-- The letter, behind one hyphen. -/
  short : Option Char
  /-- Checks the value, if the option has one. -/
  value : Option (String → Except ArgumentEnd Unit)

/-- Options that were found, with their values. -/
abbrev Found := List (String × String)

def Found.value? (found : Found) (long : String) : Option String :=
  (found.find? fun f => f.1 == long).map (·.2)

def Found.has (found : Found) (long : String) : Bool := (found.value? long).isSome

/-- Whether an argument looks like an option. -/
def looksLikeOption (arg : String) : Bool := arg.startsWith "-" && arg != "-"

/-- Adds an option, unless it was found before. -/
def add (found : Found) (long value : String) : Except ArgumentEnd Found :=
  if found.has long then .error .usage else .ok (found ++ [(long, value)])

/-- Takes an option without a value. -/
def takeFlag (spec : OptionSpec) (found : Found) : Except ArgumentEnd Found :=
  if spec.value.isSome then .error .usage
  else if spec.long = "help" then .error .help
  else if spec.long = "version" then .error .version
  else add found spec.long ""

/-- Takes the letters of an argument with one hyphen, none of which has a value. -/
def takeLetters (specs : List OptionSpec) (found : Found) : List Char → Except ArgumentEnd Found
  | [] => .ok found
  | c :: cs =>
    match specs.find? fun s => s.short == some c with
    | none => .error .usage
    | some spec =>
      match takeFlag spec found with
      | .error e => .error e
      | .ok found => takeLetters specs found cs

/-- Takes an option with its value. -/
def takeValue (spec : OptionSpec) (value : String) (found : Found) : Except ArgumentEnd Found :=
  match spec.value with
  | none => .error .usage
  | some check =>
    match add found spec.long value, check value with
    | .error e, _ => .error e
    | .ok _, .error e => .error e
    | .ok found, .ok () => .ok found

/-- Splits the name of an option from the value behind an equals sign. -/
def splitValue (cs : List Char) : String × Option String :=
  let name := String.ofList (cs.takeWhile (· != '='))
  match cs.dropWhile (· != '=') with
  | _ :: value => (name, some (String.ofList value))
  | [] => (name, none)

/-- Takes options up to the first argument that is none: what was found, and the
rest. -/
def takeOptions (specs : List OptionSpec) (found : Found) :
    List String → Except ArgumentEnd (Found × List String)
  | [] => .ok (found, [])
  | arg :: rest =>
    match arg.toList with
    | ['-', '-'] => if rest = [] then .ok (found, []) else .error .usage
    | '-' :: '-' :: name =>
      let (name, value) := splitValue name
      match specs.find? fun s => s.long == name with
      | none => .error .usage
      | some spec =>
        match spec.value, value, rest with
        | none, some _, _ => .error .usage
        | none, none, rest =>
          match takeFlag spec found with
          | .error e => .error e
          | .ok found => takeOptions specs found rest
        | some _, some value, rest =>
          match takeValue spec value found with
          | .error e => .error e
          | .ok found => takeOptions specs found rest
        | some _, none, [] => .error .usage
        | some _, none, value :: rest =>
          if looksLikeOption value then .error .usage
          else
            match takeValue spec value found with
            | .error e => .error e
            | .ok found => takeOptions specs found rest
    | '-' :: letter :: letters =>
      match takeLetters specs found (letter :: letters) with
      | .error e => .error e
      | .ok found => takeOptions specs found rest
    | _ => .ok (found, arg :: rest)

/-! ## Values -/

/-- Takes any value. -/
def anyValue (_ : String) : Except ArgumentEnd Unit := .ok ()

/-- Takes a value that is not empty. -/
def pathValue (s : String) : Except ArgumentEnd Unit := if s = "" then .error .usage else .ok ()

/-- Takes what can be read. -/
def readable (read : String → Option α) (s : String) : Except ArgumentEnd Unit :=
  if (read s).isSome then .ok () else .error .usage

def instant? (s : String) : Option Instant := Rfc3339.read? s.toList

def dialect? (s : String) : Option Dialect := Dialect.all.find? fun d => d.name == s

/-- Takes a span of time. -/
def spanValue (s : String) : Except ArgumentEnd Unit :=
  match Span.read s.toList with
  | .ok _ => .ok ()
  | .error .carryOverflow => .error (.fault Span.ReadError.carryOverflow.message)
  | .error _ => .error .usage

def span? (s : String) : Option Span := (Span.read s.toList).toOption

/-! ## Commands -/

def general : List OptionSpec :=
  [⟨"config", none, some pathValue⟩, ⟨"verbose", some 'v', none⟩, ⟨"quiet", some 'q', none⟩,
    ⟨"help", some 'h', none⟩]

/-- The options that stand before a command only. -/
def leading : List OptionSpec := general ++ [⟨"version", some 'V', none⟩]

def expandOptions : List OptionSpec :=
  [⟨"query", none, some anyValue⟩, ⟨"from", none, some (readable instant?)⟩,
    ⟨"to", none, some (readable instant?)⟩, ⟨"interval", none, some spanValue⟩,
    ⟨"dialect", none, some (readable dialect?)⟩]

def configOptions : List OptionSpec := [⟨"json", none, none⟩]

/-- The interval of an expansion if none is given. -/
def usualInterval : Span := .ofSeconds 60

/-- The names of the commands with their options. -/
def commands : List (String × List OptionSpec) :=
  [("expand", expandOptions), ("serve", []), ("config", configOptions), ("validate", []),
    ("version", [])]

/-- The expansion of what was found.  The query must be there. -/
def expandOf (found : Found) : Except ArgumentEnd Command :=
  match found.value? "query" with
  | none => .error .usage
  | some query =>
    .ok (.expand ⟨query, (found.value? "from").bind instant?, (found.value? "to").bind instant?,
      ((found.value? "interval").bind span?).getD usualInterval,
      (found.value? "dialect").bind dialect?⟩)

/-- The command of a name and what was found behind it. -/
def commandOf (name : String) (found : Found) : Except ArgumentEnd Command :=
  if name = "expand" then expandOf found
  else if name = "config" then .ok (.config (found.has "json"))
  else if name = "validate" then .ok .validate
  else if name = "version" then .ok .version
  else .ok .serve

/-- The invocation of a command.  What is given behind the command goes before what
is given before it. -/
def invocationOf (before behind : Found) (command : Command) : Invocation where
  configPath := (behind.value? "config").or (before.value? "config")
  verbose := before.has "verbose" || behind.has "verbose"
  quiet := before.has "quiet" || behind.has "quiet"
  command := command

/-- Whether the arguments behind the word that asks for help name a command at
most. -/
def asksForHelp : List String → Bool
  | [] => true
  | [name] => name == "help" || commands.any fun c => c.1 == name
  | _ => false

def read (args : List String) : Except ArgumentEnd Invocation := do
  match ← takeOptions leading [] args with
  | (before, []) => .ok (invocationOf before [] .serve)
  | (before, name :: rest) =>
    if name = "help" then .error (if asksForHelp rest then .help else .usage)
    else
      match commands.find? fun c => c.1 == name with
      | none => .error .usage
      | some (_, options) =>
        match ← takeOptions (options ++ general) [] rest with
        | (behind, []) => .ok (invocationOf before behind (← commandOf name behind))
        | (_, _ :: _) => .error .usage

end CommandLine

end SeriesQuery
