import SeriesQuery.Config.Toml.Number
import SeriesQuery.Config.Toml.Text
import SeriesQuery.Config.Toml.Tree

/-!
# TOML documents

A document is lines: values with their keys, headers of tables, and lines without
either.  Values are texts, words, sequences and tables in braces.  A sequence may go
over several lines, and a table in braces may not.

`Toml.read?` gives the values of a document, or nothing if the text is none.
-/

namespace SeriesQuery.Toml

/-- The name under which the text of a time stands in the table that it is read
as. -/
def timeName : String := "$__toml_private_datetime"

/-- The value of a word. -/
def wordValue? (cs : List Char) : Option ConfigValue :=
  if cs = "true".toList then some (.flag true)
  else if cs = "false".toList then some (.flag false)
  else if isWhole cs ∨ isFloat cs then some (.number (String.ofList cs))
  else if isTime cs then some (.table [(timeName, .text (String.ofList cs))])
  else none

mutual

/-- Reads a value.  `fuel` bounds the steps and `depth` the nesting. -/
def value? : (fuel depth : Nat) → List Char → Option (ConfigValue × List Char)
  | 0, _, _ => none
  | fuel + 1, depth, cs =>
    match depth, cs with
    | _, '\x22' :: rest => (text? '\x22' rest).map fun (s, rest) => (.text s, rest)
    | _, '\x27' :: rest => (text? '\x27' rest).map fun (s, rest) => (.text s, rest)
    | depth + 1, '[' :: rest => items? fuel depth [] rest
    | depth + 1, '{' :: rest =>
      match skipBlanks rest with
      | '}' :: rest => some (.table [], rest)
      | _ => members? fuel depth [] rest
    | _, cs =>
      let (w, rest) := word cs
      (wordValue? w).map fun v => (v, rest)

/-- Reads the items of a sequence, with those before them, the last first. -/
def items? : (fuel depth : Nat) → List ConfigValue → List Char → Option (ConfigValue × List Char)
  | 0, _, _, _ => none
  | fuel + 1, depth, read, cs =>
    match skipLines (cs.length + 1) cs with
    | ']' :: rest => some (.list read.reverse, rest)
    | cs => do
      let (v, rest) ← value? fuel depth cs
      match skipLines (rest.length + 1) rest with
      | ',' :: rest => items? fuel depth (v :: read) rest
      | ']' :: rest => some (.list (v :: read).reverse, rest)
      | _ => none

/-- Reads the members of a table in braces, with those before them, the last
first. -/
def members? : (fuel depth : Nat) → List (List String × ConfigValue) → List Char →
    Option (ConfigValue × List Char)
  | 0, _, _, _ => none
  | fuel + 1, depth, read, cs => do
    let (path, rest) ← key? cs
    let '=' :: rest := rest | none
    let (v, rest) ← value? fuel depth (skipBlanks rest)
    match skipBlanks rest with
    | ',' :: rest => members? fuel depth ((path, v) :: read) rest
    | '}' :: rest =>
      (Entries.addValues ((path, v) :: read).reverse []).map fun es =>
        (.table (Entries.valuesOf es), rest)
    | _ => none

end

/-- Reads a value behind its key, as far as its line may go.  Every value, and every
bracket, takes a character. -/
def valueOfKey? (cs : List Char) : Option (ConfigValue × List Char) :=
  value? (2 * cs.length + 2) maxDepth cs

/-! ## Lines -/

/-- A line that is not empty. -/
inductive Line where
  | header (h : Header)
  /-- A value with its key. -/
  | pair (path : List String) (v : ConfigValue)

def line? (cs : List Char) : Option (Line × List Char) :=
  match cs with
  | '[' :: '[' :: rest => do
    let (path, rest) ← key? rest
    let ']' :: ']' :: rest := rest | none
    some (.header (.item path), ← endLine? rest)
  | '[' :: rest => do
    let (path, rest) ← key? rest
    let ']' :: rest := rest | none
    some (.header (.table path), ← endLine? rest)
  | cs => do
    let (path, rest) ← key? cs
    let '=' :: rest := rest | none
    let (v, rest) ← valueOfKey? (skipBlanks rest)
    some (.pair path v, ← endLine? rest)

/-- Reads lines.  `fuel` bounds their number. -/
def lines? : (fuel : Nat) → List Char → Option (List Line)
  | 0, _ => none
  | fuel + 1, cs =>
    match skipLines (cs.length + 1) cs with
    | [] => some []
    | cs =>
      if skipComment cs = [] then some []
      else do
        let (l, rest) ← line? cs
        some (l :: (← lines? fuel rest))

/-- The sections of lines: the one that is going on, and those that follow. -/
def sections (header : Header) (read : List (List String × ConfigValue)) : List Line → List Section
  | [] => [⟨header, read.reverse⟩]
  | .header h :: ls => ⟨header, read.reverse⟩ :: sections h [] ls
  | .pair path v :: ls => sections header ((path, v) :: read) ls

/-- The text without a mark of the byte order at its start. -/
def withoutMark : List Char → List Char
  | '\uFEFF' :: cs => cs
  | cs => cs

def read? (text : String) : Option ConfigValue := do
  let cs := withoutMark text.toList
  let ls ← lines? (cs.length + 1) cs
  let es ← (sections .none [] ls).foldlM Section.addTo []
  some (.table (Entries.valuesOf es))

end SeriesQuery.Toml
