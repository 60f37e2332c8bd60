import SeriesQuery.Json.Basic
import SeriesQuery.Json.Lexeme

/-!
# Reading JSON up to its first fault

A text is read from left to right, and the first character that no JSON text
could have there ends the reading.  What was read until then is kept: an
`Outline` is a JSON value in which a value that could not be read is a `fault`,
and a sequence or an object that was not brought to its end is marked as open.
A fault is always the last thing that was read, so it lies in open containers
only, or is the whole text.

An outline keeps more than a value.  Members stay in their order, also those of
one name, so that a reader who goes through them meets errors in the order of the
text.  A text with half of a surrogate pair is read, but has no value: it does no
harm where it is passed over.

Containers are held on a stack and not by recursion, so they nest to any depth.
-/

namespace SeriesQuery

/-- A JSON text as far as it could be read. -/
inductive Outline where
  | null
  | bool (b : Bool)
  /-- A number, by its parts. -/
  | number (parts : Lexeme.Parts)
  /-- A text; none if half of a surrogate pair stands alone in it. -/
  | string (s : Option String)
  /-- A sequence, and whether it was brought to its end. -/
  | array (items : List Outline) (closed : Bool)
  /-- An object by the names and values of its members, and whether it was brought
  to its end.  What stands in the place of a name need not be a text, but then the
  object is open. -/
  | object (members : List (Outline × Outline)) (closed : Bool)
  | fault

namespace Outline

/-! ## Blanks and words -/

def isBlank (c : Char) : Bool := c == ' ' || c == '\n' || c == '\t' || c == '\r'

def skipBlanks (cs : List Char) : List Char := cs.dropWhile isBlank

/-- The text behind a word that it starts with. -/
def behind? (word cs : List Char) : Option (List Char) :=
  if word.isPrefixOf cs then some (cs.drop word.length) else none

/-! ## Texts -/

def hexValue? (c : Char) : Option Nat :=
  if c.isDigit then some (c.toNat - '0'.toNat)
  else if 'a' ≤ c ∧ c ≤ 'f' then some (c.toNat - 'a'.toNat + 10)
  else if 'A' ≤ c ∧ c ≤ 'F' then some (c.toNat - 'A'.toNat + 10)
  else none

/-- The number of four hexadecimal digits. -/
def hexFour? (a b c d : Char) : Option Nat := do
  some ((((← hexValue? a) * 16 + (← hexValue? b)) * 16 + (← hexValue? c)) * 16 + (← hexValue? d))

/-- The character of an escape of one letter. -/
def simpleEscape? (c : Char) : Option Char :=
  if c = '\x22' ∨ c = '\\' ∨ c = '/' then some c
  else if c = 'b' then some '\x08'
  else if c = 'f' then some '\x0c'
  else if c = 'n' then some '\n'
  else if c = 'r' then some '\r'
  else if c = 't' then some '\t'
  else none

/-- A character of a text, or a unit of sixteen bits from an escape. -/
inductive TextUnit where
  | char (c : Char)
  /-- A unit of sixteen bits. -/
  | unit (n : Nat)

/-- Reads the units of a text up to its closing quotation mark, the last first. -/
def textUnits? (read : List TextUnit) : List Char → Option (List TextUnit × List Char)
  | [] => none
  | '\\' :: 'u' :: a :: b :: c :: d :: cs =>
    match hexFour? a b c d with
    | some n => textUnits? (.unit n :: read) cs
    | none => none
  | '\\' :: c :: cs =>
    match simpleEscape? c with
    | some e => textUnits? (.char e :: read) cs
    | none => none
  | c :: cs =>
    if c = '\x22' then some (read, cs)
    else if c = '\\' ∨ c.toNat < 32 then none
    else textUnits? (.char c :: read) cs

/-- Whether a unit is the first half of a surrogate pair. -/
def isHigh (n : Nat) : Bool := 0xD800 ≤ n && n ≤ 0xDBFF

/-- Whether a unit is the second half of a surrogate pair. -/
def isLow (n : Nat) : Bool := 0xDC00 ≤ n && n ≤ 0xDFFF

/-- Joins surrogate pairs; none if half of one stands alone. -/
def joinUnits? : List TextUnit → Option (List Char)
  | [] => some []
  | .char c :: us => (joinUnits? us).map (c :: ·)
  | .unit n :: .unit m :: us =>
    if isHigh n then
      if isLow m then
        (joinUnits? us).map (Char.ofNat (0x10000 + (n - 0xD800) * 0x400 + (m - 0xDC00)) :: ·)
      else none
    else if isLow n then none
    else (joinUnits? (.unit m :: us)).map (Char.ofNat n :: ·)
  | .unit n :: us =>
    if isHigh n || isLow n then none else (joinUnits? us).map (Char.ofNat n :: ·)

/-- Reads a text behind its opening quotation mark. -/
def text? (cs : List Char) : Option (Option String × List Char) :=
  (textUnits? [] cs).map fun (units, rest) => ((joinUnits? units.reverse).map String.ofList, rest)

/-! ## Containers -/

/-- A container that is being read, with its items so far, the last first. -/
inductive Open where
  /-- A sequence. -/
  | array (items : List Outline)
  /-- An object, with the name of the member that comes next. -/
  | object (members : List (Outline × Outline)) (name : Outline)

/-- A container with one more item, left open. -/
def Open.leave (v : Outline) : Open → Outline
  | .array items => .array (v :: items).reverse false
  | .object members name => .object ((name, v) :: members).reverse false

/-- All containers left open around the value that was read last. -/
def abandon (v : Outline) (stack : List Open) : Outline := stack.foldl Open.leave v

/-- What the reader is about to do. -/
inductive Task where
  /-- Read a value; at the start of a sequence its end may come instead. -/
  | value (first : Bool)
  /-- Read the name of a member; at the start of an object its end may come
  instead. -/
  | name (first : Bool)
  /-- Put a value into the innermost container. -/
  | put (v : Outline)

/-- A value that is no container, and the rest of the text. -/
def scalar? (cs : List Char) : Option (Outline × List Char) :=
  match cs with
  | [] => none
  | c :: rest =>
    if c = '\x22' then (text? rest).map fun (s, rest) => (.string s, rest)
    else if c = 'n' then (behind? "null".toList cs).map fun rest => (.null, rest)
    else if c = 't' then (behind? "true".toList cs).map fun rest => (.bool true, rest)
    else if c = 'f' then (behind? "false".toList cs).map fun rest => (.bool false, rest)
    else (Lexeme.read? cs).map fun (parts, rest) => (.number parts, rest)

/-- What stands in the place of a name and is no text. -/
def strayName (cs : List Char) : Outline :=
  match cs with
  | '[' :: _ => .array [] false
  | '{' :: _ => .object [] false
  | _ => ((scalar? cs).map (·.1)).getD .fault

/-- Reads a text with a stack of containers.  `fuel` bounds the steps. -/
def readWith : (fuel : Nat) → Task → List Open → List Char → Outline × List Char
  | 0, _, stack, cs => (abandon .fault stack, cs)
  | fuel + 1, task, stack, cs =>
    let cs := skipBlanks cs
    match task, stack, cs with
    | .value true, .array items :: outer, ']' :: rest =>
      readWith fuel (.put (.array items.reverse true)) outer rest
    | .value _, stack, '[' :: rest => readWith fuel (.value true) (.array [] :: stack) rest
    | .value _, stack, '{' :: rest => readWith fuel (.name true) (.object [] .fault :: stack) rest
    | .value _, stack, cs =>
      match scalar? cs with
      | some (v, rest) => readWith fuel (.put v) stack rest
      | none => (abandon .fault stack, cs)
    | .name true, .object members _ :: outer, '}' :: rest =>
      readWith fuel (.put (.object members.reverse true)) outer rest
    | .name _, .object members _ :: outer, '\x22' :: rest =>
      match text? rest with
      | some (name, rest) =>
        let stack := .object members (.string name) :: outer
        match skipBlanks rest with
        | ':' :: rest => readWith fuel (.value false) stack rest
        | rest => (abandon .fault stack, rest)
      | none => (abandon (.object members.reverse false) outer, rest)
    | .name _, .object members _ :: outer, rest =>
      (abandon (.object ((strayName rest, .fault) :: members).reverse false) outer, rest)
    | .name _, stack, rest => (abandon .fault stack, rest)
    | .put v, [], rest => (v, rest)
    | .put v, .array items :: outer, ',' :: rest =>
      readWith fuel (.value false) (.array (v :: items) :: outer) rest
    | .put v, .array items :: outer, ']' :: rest =>
      readWith fuel (.put (.array (v :: items).reverse true)) outer rest
    | .put v, .object members name :: outer, ',' :: rest =>
      readWith fuel (.name false) (.object ((name, v) :: members) .fault :: outer) rest
    | .put v, .object members name :: outer, '}' :: rest =>
      readWith fuel (.put (.object ((name, v) :: members).reverse true)) outer rest
    | .put v, innermost :: outer, rest => (abandon (innermost.leave v) outer, rest)

end Outline

/-- A JSON text: what could be read of its value, and whether nothing but blanks
follows it. -/
structure JsonText where
  root : Outline
  /-- Whether the text ends behind it. -/
  ends : Bool

/-- Reads a JSON text.  Every step but the last takes a character or puts a value,
and every value but a container takes one too. -/
def JsonText.read (s : String) : JsonText :=
  let cs := s.toList
  let (root, rest) := Outline.readWith (2 * cs.length + 2) (.value false) [] cs
  ⟨root, Outline.skipBlanks rest == []⟩

namespace Outline

mutual

def toJson? : Outline → Option Json
  | .null => some .null
  | .bool b => some (.bool b)
  | .number parts => some (.number parts.render)
  | .string s => s.map .string
  | .array items closed => if closed then (itemsToJson? items).map .array else none
  | .object members closed => if closed then (membersToJson? members).map .object else none
  | .fault => none

/-- The values of items. -/
def itemsToJson? : List Outline → Option (List Json)
  | [] => some []
  | v :: vs => do some ((← toJson? v) :: (← itemsToJson? vs))

/-- The values of members. -/
def membersToJson? : List (Outline × Outline) → Option (List (String × Json))
  | [] => some []
  | (.string (some name), v) :: ms => do some ((name, ← toJson? v) :: (← membersToJson? ms))
  | _ => none

end

end Outline

/-- The value of a JSON text without faults. -/
def Json.read? (s : String) : Option Json :=
  let text := JsonText.read s
  if text.ends then text.root.toJson? else none

end SeriesQuery
