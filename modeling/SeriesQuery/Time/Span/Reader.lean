import SeriesQuery.Text.Blank
import SeriesQuery.Time.Span

/-!
# Reading spans

A span is read from items such as `5m`, `1.5 h` or `2days`, one after the other,
with or without blanks between them; it is the sum of its items.  An item is a
number and a unit.  Blanks may also stand between and inside the digits.

The number is made of ASCII digits, with an optional point and at least one digit
after it.  A unit is a word of ASCII letters and the micro sign that ends at a
blank, at a digit, which starts the next item, or with the text.  All numbers
have to fit 64 bits, and a fraction has to come out as whole nanoseconds, or as
whole seconds for units of an hour and more.

Positions in errors count bytes from the start of the text.  A character that is
out of place is reported where it stands, but after a point at the end of the
last character that was in place.
-/

namespace SeriesQuery.Span

/-- Why a text is not a span. -/
inductive ReadError where
  /-- There is nothing but blanks. -/
  | empty
  /-- An item does not start with a digit. -/
  | numberExpected (offset : Nat)
  /-- A character is out of place. -/
  | invalidCharacter (offset : Nat)
  /-- A number has no unit. -/
  | unitNeeded (number : Nat)
  /-- No unit has this name. -/
  | unknownUnit (name : String)
  /-- A number exceeds 64 bits or is no whole number of nanoseconds. -/
  | outOfRange
  /-- A full second of nanoseconds meets the greatest number of seconds. -/
  | carryOverflow
deriving DecidableEq

def ReadError.message : ReadError → String
  | .empty => "value was empty"
  | .numberExpected offset => s!"expected number at {offset}"
  | .invalidCharacter offset => s!"invalid character at {offset}"
  | .unitNeeded n => s!"time unit needed, for example {n}sec or {n}ms"
  | .unknownUnit name =>
    s!"unknown time unit \"{name}\", supported units: ns, us/µs, ms, sec, min, hours, days, " ++
      "weeks, months, years (and few variations)"
  | .outOfRange =>
    "number is too large or cannot be represented without a lack of precision " ++
      "(values below 1ns are not supported)"
  | .carryOverflow => "overflow in Duration::new"

/-! ## Units -/

/-- A unit of time, by what one of it adds. -/
inductive SpanUnit where
  /-- So many nanoseconds; only of a unit of more than one can there be a
  fraction. -/
  | nanos (n : Nat)
  /-- So many seconds, and a fraction counts in nanoseconds. -/
  | short (seconds : Nat)
  /-- So many seconds, and a fraction counts in seconds. -/
  | long (seconds : Nat)
deriving DecidableEq

/-- The units by name. -/
def units : List (List String × SpanUnit) :=
  [(["nanos", "nsec", "ns"], .nanos 1),
   (["usec", "us", "µs"], .nanos 1000),
   (["millis", "msec", "ms"], .nanos 1000000),
   (["seconds", "second", "secs", "sec", "s"], .short 1),
   (["minutes", "minute", "min", "mins", "m"], .short 60),
   (["hours", "hour", "hr", "hrs", "h"], .long 3600),
   (["days", "day", "d"], .long 86400),
   (["weeks", "week", "wk", "wks", "w"], .long 604800),
   (["months", "month", "M"], .long monthSeconds),
   (["years", "year", "yr", "yrs", "y"], .long yearSeconds)]

def unit? (name : String) : Option SpanUnit :=
  (units.find? fun entry => entry.1.contains name).map (·.2)

/-! ## Sums -/

/-- Numbers from here on exceed 64 bits. -/
def wordLimit : Nat := 18446744073709551616

/-- A number if it fits 64 bits. -/
def inWord (n : Nat) : Except ReadError Nat :=
  if n < wordLimit then .ok n else .error .outOfRange

/-- Adds seconds and nanoseconds to a span. -/
def add (s : Span) (seconds nanos : Nat) : Except ReadError Span := do
  let total ← inWord (s.nanos + nanos)
  let carried ←
    if nanosPerSecond < total then inWord (seconds + total / nanosPerSecond) else pure seconds
  let rest := if nanosPerSecond < total then total % nanosPerSecond else total
  let seconds ← inWord (s.seconds + carried)
  match of? (seconds + rest / nanosPerSecond) (rest % nanosPerSecond) with
  | some sum => .ok sum
  | none => .error .carryOverflow

/-- The number of an item: a whole part, and a fraction `numerator / 10^places`
if there is a point. -/
structure Amount where
  /-- The digits before the point. -/
  whole : Nat
  /-- The digits after the point and their number. -/
  fraction : Option (Nat × Nat)

/-- The quotient of a product, if it fits 64 bits and leaves no remainder. -/
def exactQuotient (a b den : Nat) : Except ReadError Nat := do
  let product ← inWord (a * b)
  if product % den = 0 then .ok (product / den) else .error .outOfRange

/-- Adds an item to a span. -/
def addItem (s : Span) (amount : Amount) (name : String) : Except ReadError Span :=
  match unit? name with
  | none => .error (if name = "" then .unitNeeded amount.whole else .unknownUnit name)
  | some unit => do
    let s ←
      match unit with
      | .nanos n => do add s 0 (← inWord (amount.whole * n))
      | .short n => do add s (← inWord (amount.whole * n)) 0
      | .long n => do add s (← inWord (amount.whole * n)) 0
    match amount.fraction, unit with
    | none, _ => .ok s
    | some (numerator, places), .nanos n =>
      if n = 1 then .error .outOfRange
      else do add s 0 (← exactQuotient numerator n (Nat.pow 10 places))
    | some (numerator, places), .short n =>
      do add s 0 (← exactQuotient numerator (n * nanosPerSecond) (Nat.pow 10 places))
    | some (numerator, places), .long n =>
      do add s (← exactQuotient numerator n (Nat.pow 10 places)) 0

/-! ## The text -/

/-- A letter of a unit. -/
def isUnitChar (c : Char) : Bool := c.isAlpha || c == 'µ'

/-- Where the reader stands in an item. -/
inductive Place where
  /-- Before the first digit of an item. -/
  | between
  /-- Among the digits before the point. -/
  | whole (n : Nat)
  /-- Behind the point, with the digits read so far, their number and the end of
  the last character read. -/
  | fraction (n numerator places last : Nat)
  /-- In the unit of a number, with its letters so far, the last one first. -/
  | unit (amount : Amount) (letters : List Char)

def digit (c : Char) : Nat := c.toNat - '0'.toNat

/-- Reads one character at a position: the span so far and the new place. -/
def step (s : Span) (offset : Nat) (c : Char) : Place → Except ReadError (Span × Place)
  | .between =>
    if c.isDigit then .ok (s, .whole (digit c))
    else if Text.isBlank c then .ok (s, .between)
    else .error (.numberExpected offset)
  | .whole n =>
    if c.isDigit then do .ok (s, .whole (← inWord (n * 10 + digit c)))
    else if Text.isBlank c then .ok (s, .whole n)
    else if isUnitChar c then .ok (s, .unit ⟨n, none⟩ [c])
    else if c = '.' then .ok (s, .fraction n 0 0 offset)
    else .error (.invalidCharacter offset)
  | .fraction n numerator places last =>
    if c.isDigit then do
      let numerator ← inWord (numerator * 10 + digit c)
      let _ ← inWord (Nat.pow 10 (places + 1))
      .ok (s, .fraction n numerator (places + 1) (offset + c.utf8Size))
    else if Text.isBlank c then .ok (s, .fraction n numerator places (offset + c.utf8Size))
    else if isUnitChar c && places != 0 then .ok (s, .unit ⟨n, some (numerator, places)⟩ [c])
    else .error (.invalidCharacter last)
  | .unit amount letters =>
    if isUnitChar c then .ok (s, .unit amount (c :: letters))
    else if c.isDigit then do
      .ok (← addItem s amount (String.ofList letters.reverse), .whole (digit c))
    else if Text.isBlank c then do
      .ok (← addItem s amount (String.ofList letters.reverse), .between)
    else .error (.invalidCharacter offset)

/-- Ends the text at a place. -/
def finish (s : Span) : Place → Except ReadError Span
  | .between => .ok s
  | .whole n => addItem s ⟨n, none⟩ ""
  | .fraction n numerator places last =>
    if places = 0 then .error (.invalidCharacter last)
    else addItem s ⟨n, some (numerator, places)⟩ ""
  | .unit amount letters => addItem s amount (String.ofList letters.reverse)

/-- Reads a text from a place on. -/
def readFrom (s : Span) (offset : Nat) (place : Place) : List Char → Except ReadError Span
  | [] => finish s place
  | c :: cs => do
    let (s, place) ← step s offset c place
    readFrom s (offset + c.utf8Size) place cs

/-- Reads a span.  The text `0` needs no unit. -/
def read (cs : List Char) : Except ReadError Span :=
  if cs = ['0'] then .ok zero
  else if Text.trim cs = [] then .error .empty
  else readFrom zero 0 .between cs

end SeriesQuery.Span
