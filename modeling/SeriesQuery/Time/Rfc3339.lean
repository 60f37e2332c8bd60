import SeriesQuery.Number.Digits
import SeriesQuery.Text.Blank
import SeriesQuery.Time.Instant

/-!
# Instants as text

The format of RFC 3339, with two extensions for years of other than four digits:
a year before 0 or after 9999 is written with a sign and at least four digits.

`write` uses 0, 3, 6 or 9 digits for the fraction of a second, the fewest that
lose nothing, and writes a leap second as second 60.  `read?` accepts more than
`write` produces: any offset from UTC, blanks around the numbers and marks,
numbers of fewer digits, and three separators between date and time.
-/

namespace SeriesQuery.Rfc3339

/-! ## Writing -/

/-- A year, with four digits at least; outside 0 to 9999 with a sign. -/
def year (y : Int) : List Char :=
  if 0 ≤ y ∧ y ≤ 9999 then Digits.padded 4 y.natAbs
  else (if y < 0 then '-' else '+') :: Digits.padded 4 y.natAbs

/-- A date as year, month and day. -/
def date (d : Date) : List Char :=
  year d.year ++ '-' :: Digits.padded 2 d.month ++ '-' :: Digits.padded 2 d.day

/-- The fraction of a second, with the point; nothing for a whole second. -/
def fraction (nanos : Nat) : List Char :=
  if nanos = 0 then []
  else if nanos % 1000000 = 0 then '.' :: Digits.padded 3 (nanos / 1000000)
  else if nanos % 1000 = 0 then '.' :: Digits.padded 6 (nanos / 1000)
  else '.' :: Digits.padded 9 nanos

/-- Hour, minute and second of a second of the day, with the fraction. -/
def clock (secondOfDay nanos : Nat) : List Char :=
  let leap := if nanosPerSecond ≤ nanos then 1 else 0
  Digits.padded 2 (secondOfDay / 3600) ++ ':' :: Digits.padded 2 (secondOfDay / 60 % 60) ++
    ':' :: Digits.padded 2 (secondOfDay % 60 + leap) ++ fraction (nanos % nanosPerSecond)

/-- An instant without its offset from UTC. -/
def localText (t : Instant) : List Char :=
  date (Date.ofDays (t.second / secondsPerDay)) ++
    'T' :: clock (t.second % secondsPerDay).toNat t.nano

/-- An instant with the offset written `Z`. -/
def write (t : Instant) : String := String.ofList (localText t ++ ['Z'])

/-- An instant with the offset written `+00:00`, as in cells and labels. -/
def writeNumeric (t : Instant) : String :=
  String.ofList (localText t ++ ['+', '0', '0', ':', '0', '0'])

/-! ## Reading -/

/-- Reads digits, up to `most` of them, and the rest of the text. -/
def digits? (most : Nat) (cs : List Char) : Option (Nat × List Char) :=
  let ds := (cs.take most).takeWhile Char.isDigit
  if ds = [] then none else some (Digits.value ds, cs.drop ds.length)

/-- Reads all the digits there are. -/
def allDigits? (cs : List Char) : Option (Nat × List Char) :=
  let (ds, rest) := Digits.span cs
  if ds = [] then none else some (Digits.value ds, rest)

/-- Reads a year after blanks: with a sign any number of digits, without one at
most four. -/
def readYear? (cs : List Char) : Option (Int × List Char) :=
  match Text.trimStart cs with
  | '-' :: cs => (allDigits? cs).map fun (n, rest) => (-(n : Int), rest)
  | '+' :: cs => (allDigits? cs).map fun (n, rest) => ((n : Int), rest)
  | cs => (digits? 4 cs).map fun (n, rest) => ((n : Int), rest)

/-- Reads a number of one or two digits after blanks. -/
def readTwo? (cs : List Char) : Option (Nat × List Char) := digits? 2 (Text.trimStart cs)

/-- Reads a mark after blanks. -/
def readMark? (mark : Char) (cs : List Char) : Option (List Char) :=
  match Text.trimStart cs with
  | c :: rest => if c = mark then some rest else none
  | [] => none

/-- Reads the fraction of a second in nanoseconds; digits after the ninth are
dropped. -/
def readFraction? : List Char → Option (Nat × List Char)
  | '.' :: cs =>
    let (ds, rest) := Digits.span cs
    if ds = [] then none
    else
      let kept := ds.take 9
      some (Digits.value kept * Nat.pow 10 (9 - kept.length), rest)
  | cs => some (0, cs)

/-- Reads two digits exactly. -/
def twoDigits? : List Char → Option (Nat × List Char)
  | a :: b :: rest => if a.isDigit ∧ b.isDigit then some (Digits.value [a, b], rest) else none
  | _ => none

/-- Whether the text starts with `utc` in any case. -/
def startsUtc : List Char → Bool
  | a :: b :: c :: _ => [a, b, c].map Char.toLower == ['u', 't', 'c']
  | _ => false

/-- Reads an offset from UTC in seconds: `Z`, `UTC` or a sign, hours and minutes,
with colons or blanks between them or nothing. -/
def readOffset? (cs : List Char) : Option (Int × List Char) :=
  if startsUtc cs then some (0, cs.drop 3)
  else
    match cs with
    | [] => none
    | c :: rest =>
      if c = 'Z' ∨ c = 'z' then some (0, rest)
      else if c = '+' ∨ c = '-' ∨ c = '\u2212' then do
        let (hours, rest) ← twoDigits? rest
        let rest := rest.dropWhile fun c => c == ':' || Text.isBlank c
        let (minutes, rest) ← twoDigits? rest
        let seconds : Int := (hours * 3600 + minutes * 60 : Nat)
        if minutes ≤ 59 then some (if c = '+' then seconds else -seconds, rest) else none
      else none

/-- The instant of a local date and time with an offset of less than a day.
Second 60 is a leap second. -/
def assemble? (date : Date) (hour minute second nanos : Nat) (offset : Int) : Option Instant :=
  let leap := if second = 60 then 1 else 0
  let localSecond := date.toDays * secondsPerDay + (hour * 3600 + minute * 60 + (second - leap) : Nat)
  if date.Exists ∧ hour ≤ 23 ∧ minute ≤ 59 ∧ second ≤ 60 ∧ offset.natAbs < 86400 ∧
      Instant.firstSecond ≤ localSecond ∧ localSecond ≤ Instant.lastSecond then
    Instant.of? (localSecond - offset) (nanos + leap * nanosPerSecond)
  else none

def read? (cs : List Char) : Option Instant := do
  let (year, cs) ← readYear? cs
  let cs ← readMark? '-' cs
  let (month, cs) ← readTwo? cs
  let cs ← readMark? '-' cs
  let (day, cs) ← readTwo? cs
  match cs with
  | [] => none
  | c :: cs =>
    if c = 'T' ∨ c = 't' ∨ c = ' ' then
      let (hour, cs) ← readTwo? cs
      let cs ← readMark? ':' cs
      let (minute, cs) ← readTwo? cs
      let cs ← readMark? ':' cs
      let (second, cs) ← readTwo? cs
      let (nanos, cs) ← readFraction? cs
      let (offset, cs) ← readOffset? (Text.trimStart cs)
      if Text.trimStart cs = [] then assemble? ⟨year, month, day⟩ hour minute second nanos offset
      else none
    else none

end SeriesQuery.Rfc3339
