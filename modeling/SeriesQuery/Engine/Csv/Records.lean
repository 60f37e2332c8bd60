/-!
# Records of text with commas

A line holds the fields of a record, separated by commas.  A field that starts with
a quotation mark goes on to the next one and may hold commas and ends of lines; two
marks in it stand for one.  What follows the closing mark belongs to the field as it
is.  Lines without characters are no records, and both a line feed and a carriage
return end a line.
-/

namespace SeriesQuery.Csv

/-- The fields of a line. -/
abbrev Record := List (List Char)

/-- Where a reader is. -/
inductive Place where
  /-- At the start of a line. -/
  | line
  /-- At the start of a field. -/
  | field
  /-- In a field without a quotation mark at its start. -/
  | plain
  /-- Between quotation marks. -/
  | quoted
  /-- Behind a quotation mark that may be closing. -/
  | mark

/-- Whether a character ends a line. -/
def isLineEnd (c : Char) : Bool := c == '\n' || c == '\r'

/-- Reads records.  `read` holds the characters of the field so far and `fields`
the fields of the record so far, the last first. -/
def recordsFrom (place : Place) (read : List Char) (fields : Record) : List Char → List Record
  | [] =>
    match place with
    | .line => []
    | _ => [(read.reverse :: fields).reverse]
  | c :: cs =>
    match place with
    | .quoted =>
      if c = '\x22' then recordsFrom .mark read fields cs
      else recordsFrom .quoted (c :: read) fields cs
    | .mark =>
      if c = '\x22' then recordsFrom .quoted (c :: read) fields cs
      else if c = ',' then recordsFrom .field [] (read.reverse :: fields) cs
      else if isLineEnd c then (read.reverse :: fields).reverse :: recordsFrom .line [] [] cs
      else recordsFrom .plain (c :: read) fields cs
    | .plain =>
      if c = ',' then recordsFrom .field [] (read.reverse :: fields) cs
      else if isLineEnd c then (read.reverse :: fields).reverse :: recordsFrom .line [] [] cs
      else recordsFrom .plain (c :: read) fields cs
    | .field =>
      if c = '\x22' then recordsFrom .quoted [] fields cs
      else if c = ',' then recordsFrom .field [] ([] :: fields) cs
      else if isLineEnd c then ([] :: fields).reverse :: recordsFrom .line [] [] cs
      else recordsFrom .plain [c] fields cs
    | .line =>
      if isLineEnd c then recordsFrom .line [] [] cs
      else if c = '\x22' then recordsFrom .quoted [] [] cs
      else if c = ',' then recordsFrom .field [] [[]] cs
      else recordsFrom .plain [c] [] cs

/-- The records of a text.  A mark of the byte order at its start is no part of
it. -/
def records (cs : List Char) : List Record :=
  match cs with
  | '\uFEFF' :: cs => recordsFrom .line [] [] cs
  | cs => recordsFrom .line [] [] cs

example : records "a,b\n\n1,\n".toList = [[['a'], ['b']], [['1'], []]] := by decide
example : records "\"a,\"\"b\"c\r\nd".toList =
    [["a,\"bc".toList], ["d".toList]] := by decide

end SeriesQuery.Csv
