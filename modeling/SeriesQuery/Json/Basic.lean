import SeriesQuery.Number.Layout

/-!
# JSON values

A JSON value keeps the members of an object in their order, and a number as it is
written.  `Json.compact` writes a value without blanks, `Json.pretty` on several
lines with an indentation of two blanks for each level.
-/

namespace SeriesQuery

/-- A JSON value. -/
inductive Json where
  /-- The value `null`. -/
  | null
  /-- A truth value. -/
  | bool (b : Bool)
  /-- A number, as it is written. -/
  | number (lexeme : List Char)
  | string (s : String)
  | array (items : List Json)
  /-- A sequence of named members. -/
  | object (members : List (String × Json))

namespace Json

def ofInt (n : Int) : Json := .number (Digits.ofInt n)

def ofNat (n : Nat) : Json := .number (Digits.ofNat n)

/-- A double; `null` stands for the ones JSON has no number for. -/
def ofFloat (x : Binary64) : Json :=
  if x.isFinite then .number (Layout.json.write x) else .null

/-- A value, or `null` for none. -/
def ofOption (f : α → Json) : Option α → Json
  | some a => f a
  | none => .null

/-- A member that is left out when there is none. -/
def optional (name : String) (f : α → Json) : Option α → List (String × Json)
  | some a => [(name, f a)]
  | none => []

/-! ## Writing -/

def hexDigit (n : Nat) : Char := Nat.digitChar n

/-- A character inside a text. -/
def escape (c : Char) : List Char :=
  if c = '\x22' then ['\\', '\x22']
  else if c = '\\' then ['\\', '\\']
  else if c = '\n' then ['\\', 'n']
  else if c = '\r' then ['\\', 'r']
  else if c = '\t' then ['\\', 't']
  else if c = '\x08' then ['\\', 'b']
  else if c = '\x0c' then ['\\', 'f']
  else if c.toNat < 32 then
    ['\\', 'u', '0', '0', hexDigit (c.toNat / 16), hexDigit (c.toNat % 16)]
  else [c]

/-- A text in quotation marks. -/
def quote (s : String) : String :=
  "\"" ++ String.ofList (s.toList.flatMap escape) ++ "\""

mutual

/-- A value without blanks. -/
def compact : Json → String
  | .null => "null"
  | .bool b => if b then "true" else "false"
  | .number lexeme => String.ofList lexeme
  | .string s => quote s
  | .array items => "[" ++ String.intercalate "," (compactItems items) ++ "]"
  | .object members => "\x7b" ++ String.intercalate "," (compactMembers members) ++ "\x7d"

/-- The items of a sequence, without blanks. -/
def compactItems : List Json → List String
  | [] => []
  | v :: vs => compact v :: compactItems vs

/-- The members of an object, without blanks. -/
def compactMembers : List (String × Json) → List String
  | [] => []
  | (name, v) :: ms => (quote name ++ ":" ++ compact v) :: compactMembers ms

end

/-- The start of a line of a level. -/
def newLine (level : Nat) : String := "\n" ++ String.ofList (List.replicate (2 * level) ' ')

/-- Lines between brackets; without lines the brackets stand alone. -/
def bracket (level : Nat) (left right : String) (lines : List String) : String :=
  if lines = [] then left ++ right
  else
    left ++ newLine (level + 1) ++ String.intercalate ("," ++ newLine (level + 1)) lines ++
      newLine level ++ right

mutual

/-- A value on several lines, from a level on. -/
def prettyAt (level : Nat) : Json → String
  | .array items => bracket level "[" "]" (prettyItems (level + 1) items)
  | .object members => bracket level "\x7b" "\x7d" (prettyMembers (level + 1) members)
  | .null => "null"
  | .bool b => if b then "true" else "false"
  | .number lexeme => String.ofList lexeme
  | .string s => quote s

/-- The items of a sequence on a level. -/
def prettyItems (level : Nat) : List Json → List String
  | [] => []
  | v :: vs => prettyAt level v :: prettyItems level vs

/-- The members of an object on a level. -/
def prettyMembers (level : Nat) : List (String × Json) → List String
  | [] => []
  | (name, v) :: ms => (quote name ++ ": " ++ prettyAt level v) :: prettyMembers level ms

end

/-- A value on several lines. -/
def pretty (v : Json) : String := prettyAt 0 v

/-! ## Members -/

/-- The first member of a name. -/
def member? (name : String) : Json → Option Json
  | .object members => (members.find? fun m => m.1 == name).map (·.2)
  | _ => none

end Json

end SeriesQuery
