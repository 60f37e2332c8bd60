import SeriesQuery.Config.Value
import SeriesQuery.Config.Toml.Text
import SeriesQuery.Number.Numeral
import SeriesQuery.Text.Blank
import SeriesQuery.Text.Split

/-!
# Configuration by environment variables

A variable whose name starts with `SQLSERIES__`, in any case, stands for a value of
the configuration.  The rest of its name, in lower case, is the path of the value;
two underscores or a point stand between its parts.

What a variable holds is a truth value, a number, a character between apostrophes, a
text between quotation marks, a sequence in brackets or a table in braces.  Anything
else is a text without the blanks around it; it must not hold a comma or a bracket.
What is none of these from its start to its end is a text as it is.
-/

namespace SeriesQuery.Environment

/-! ## Values -/

/-- A blank between the parts of a value. -/
def isBlank (c : Char) : Bool := c ∈ [' ', '\t', '\n', '\x0c', '\r']

def skipBlanks (cs : List Char) : List Char := cs.dropWhile isBlank

/-- Whether a character may stand in a text without marks. -/
def isPlain (c : Char) : Bool := !(c ∈ [',', '{', '}', '[', ']'])

/-- Whether a character may stand in a name without marks. -/
def isNameChar (c : Char) : Bool := c.isAlphanum || c == '_' || c == '-'

/-- A text between quotation marks, behind the first of them, with its escapes. -/
def quoted? (read : List Char) : (fuel : Nat) → List Char → Option (String × List Char)
  | 0, _ => none
  | _, [] => none
  | fuel + 1, c :: cs =>
    if c = '\x22' then some (String.ofList read.reverse, cs)
    else if c = '\\' then
      match Toml.escape? cs with
      | some (e, rest) => quoted? (e :: read) fuel rest
      | none => none
    else quoted? (c :: read) fuel cs

/-- Whether a text is a whole number of 64 bits, with or without a sign. -/
def isWhole (cs : List Char) : Bool :=
  match Digits.readInt? cs with
  | none => false
  | some n => Digits.minInt64 ≤ n && n < 18446744073709551616

/-- A value without marks or brackets. -/
def plainValue (cs : List Char) : ConfigValue :=
  let trimmed := Text.trim cs
  let lexeme := String.ofList trimmed
  if trimmed.contains '.' && (Numeral.read? trimmed).isSome then .number lexeme
  else if isWhole trimmed then .number lexeme
  else .text lexeme

/-- The text behind a word that it starts with. -/
def behind? (w : String) (cs : List Char) : Option (List Char) :=
  if w.toList.isPrefixOf cs then some (cs.drop w.length) else none

/-- Reads a name. -/
def name? (cs : List Char) : Option (String × List Char) :=
  match cs with
  | '\x22' :: rest => quoted? [] (rest.length + 1) rest
  | cs =>
    let name := cs.takeWhile isNameChar
    if name = [] then none else some (String.ofList name, cs.dropWhile isNameChar)

/-- Reads a value that has neither items nor members. -/
def simple? (cs : List Char) : Option (ConfigValue × List Char) :=
  match behind? "true" cs, behind? "false" cs, cs with
  | some rest, _, _ => some (.flag true, rest)
  | none, some rest, _ => some (.flag false, rest)
  | none, none, '\x22' :: rest => (quoted? [] (rest.length + 1) rest).map fun (s, rest) => (.text s, rest)
  | none, none, '\x27' :: c :: '\x27' :: rest => some (.character c, rest)
  | none, none, '\x27' :: _ => none
  | none, none, cs => some (plainValue (cs.takeWhile isPlain), cs.dropWhile isPlain)

mutual

/-- Reads a value with the blanks around it.  `fuel` bounds the steps. -/
def value? : (fuel : Nat) → List Char → Option (ConfigValue × List Char)
  | 0, _ => none
  | fuel + 1, cs => do
    let (v, rest) ←
      match skipBlanks cs with
      | '[' :: rest => items? fuel [] rest
      | '{' :: rest => members? fuel [] rest
      | cs => simple? cs
    some (v, skipBlanks rest)

/-- Reads the items of a sequence, with those before them, the last first. -/
def items? : (fuel : Nat) → List ConfigValue → List Char → Option (ConfigValue × List Char)
  | 0, _, _ => none
  | _, read, ']' :: rest => some (.list read.reverse, rest)
  | fuel + 1, read, cs => do
    let (v, rest) ← value? fuel cs
    match rest with
    | ',' :: rest => items? fuel (v :: read) rest
    | ']' :: rest => some (.list (v :: read).reverse, rest)
    | _ => none

/-- Reads the members of a table, with those before them. -/
def members? : (fuel : Nat) → List (String × ConfigValue) → List Char →
    Option (ConfigValue × List Char)
  | 0, _, _ => none
  | _, read, '}' :: rest => some (.table read, rest)
  | fuel + 1, read, cs => do
    let (name, rest) ← name? (skipBlanks cs)
    let '=' :: rest := skipBlanks rest | none
    let (v, rest) ← value? fuel rest
    let read := ConfigValue.put name v read
    match rest with
    | ',' :: rest => members? fuel read rest
    | '}' :: rest => some (.table read, rest)
    | _ => none

end

/-- The value of a variable. -/
def valueOf (text : String) : ConfigValue :=
  let cs := text.toList
  match value? (2 * cs.length + 2) cs with
  | some (v, []) => v
  | _ => .text text

/-! ## Names -/

/-- What the names of the variables start with. -/
def leader : String := "SQLSERIES__"

/-- Writes a point for two underscores. -/
def pointed : List Char → List Char
  | '_' :: '_' :: cs => '.' :: pointed cs
  | c :: cs => c :: pointed cs
  | [] => []

/-- The path that a name stands for.  It ends before the first part that is empty,
and has a part at least. -/
def path? (name : String) : Option (List String) :=
  let cs := Numeral.lower (Text.trim name.toList)
  if (Numeral.lower leader.toList).isPrefixOf cs then
    let parts := Text.splitOn '.' (pointed (cs.drop leader.length))
    match (parts.takeWhile (· != [])).map String.ofList with
    | [] => none
    | path => some path
  else none

/-- The layer of variables, of which a later one is merged into the earlier ones. -/
def layer (entries : List (String × String)) : ConfigValue :=
  entries.foldl
    (fun v entry =>
      match path? entry.1 with
      | some path => v.merge (.nested path (valueOf entry.2))
      | none => v)
    (.table [])

end SeriesQuery.Environment
