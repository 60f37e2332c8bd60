import SeriesQuery.Text.Blank

/-!
# Statements the engine knows

Two statements are known: one that asks for the number 1, and one that asks for all
rows of a table.  Comments may stand anywhere between their words, and a semicolon
at the end.  Words are read in any case, quoted names as they are.
-/

namespace SeriesQuery

/-- A statement. -/
inductive Statement where
  /-- Asks for the number 1. -/
  | one
  /-- Asks for all rows of a table. -/
  | rowsOf (table : String)
deriving DecidableEq

namespace Statement

/-- A part of a statement. -/
inductive Token where
  /-- A word or a number, in lower case. -/
  | word (cs : List Char)
  | quoted (cs : List Char)
  /-- Another character. -/
  | sign (c : Char)
deriving DecidableEq

/-- Whether a character belongs to a word. -/
def isWordChar (c : Char) : Bool := c.isAlphanum || c == '_'

/-- What is being read. -/
inductive Place where
  /-- Nothing. -/
  | between
  | word
  | quoted
  /-- A comment to the end of its line. -/
  | line
  /-- Comments, of which so many are open. -/
  | comment (depth : Nat)

/-- Puts a word that was read before tokens, its last character first. -/
def endWord (read : List Char) (tokens : List Token) : List Token :=
  if read = [] then tokens else .word (read.reverse.map Char.toLower) :: tokens

/-- Reads the parts of a statement.  A quoted name or a comment that is not ended
makes it unreadable. -/
def tokens? (place : Place) (read : List Char) : List Char → Option (List Token)
  | [] =>
    match place with
    | .between => some []
    | .word => some (endWord read [])
    | .line => some []
    | .quoted => none
    | .comment _ => none
  | '/' :: '*' :: cs =>
    match place with
    | .comment depth => tokens? (.comment (depth + 1)) [] cs
    | .quoted => tokens? .quoted ('*' :: '/' :: read) cs
    | .line => tokens? .line [] cs
    | .between => tokens? (.comment 1) [] cs
    | .word => (tokens? (.comment 1) [] cs).map (endWord read)
  | '*' :: '/' :: cs =>
    match place with
    | .comment depth => tokens? (if depth ≤ 1 then .between else .comment (depth - 1)) [] cs
    | .quoted => tokens? .quoted ('/' :: '*' :: read) cs
    | .line => tokens? .line [] cs
    | .between => (tokens? .between [] cs).map fun ts => .sign '*' :: .sign '/' :: ts
    | .word => (tokens? .between [] cs).map fun ts => endWord read (.sign '*' :: .sign '/' :: ts)
  | '-' :: '-' :: cs =>
    match place with
    | .comment depth => tokens? (.comment depth) [] cs
    | .quoted => tokens? .quoted ('-' :: '-' :: read) cs
    | .line => tokens? .line [] cs
    | .between => tokens? .line [] cs
    | .word => (tokens? .line [] cs).map (endWord read)
  | c :: cs =>
    match place with
    | .comment depth => tokens? (.comment depth) [] cs
    | .line => tokens? (if c = '\n' then .between else .line) [] cs
    | .quoted =>
      if c = '\x22' then (tokens? .between [] cs).map (.quoted read.reverse :: ·)
      else tokens? .quoted (c :: read) cs
    | _ =>
      if isWordChar c then tokens? .word (c :: read) cs
      else if c = '\x22' then (tokens? .quoted [] cs).map (endWord read)
      else if Text.isBlank c then (tokens? .between [] cs).map (endWord read)
      else (tokens? .between [] cs).map fun ts => endWord read (.sign c :: ts)

/-- Drops semicolons at the end. -/
def dropSemicolons (ts : List Token) : List Token :=
  (ts.reverse.dropWhile (· == .sign ';')).reverse

/-- The statement of its parts. -/
def ofTokens? (ts : List Token) : Option Statement :=
  let selected := [Token.word "select".toList]
  let fromTable := selected ++ [.sign '*', .word "from".toList]
  if ts = selected ++ [.word ['1']] then some .one
  else
    match ts.drop fromTable.length with
    | [.word table] => if ts.take fromTable.length = fromTable then some (.rowsOf (String.ofList table)) else none
    | [.quoted table] => if ts.take fromTable.length = fromTable then some (.rowsOf (String.ofList table)) else none
    | _ => none

def read? (sql : String) : Option Statement :=
  (tokens? .between [] sql.toList).bind fun ts => ofTokens? (dropSemicolons ts)

end Statement

end SeriesQuery
