import SeriesQuery.Engine.Storage
import SeriesQuery.Text.Blank
import SeriesQuery.Time.Calendar

/-!
# Timestamps in text with commas

A timestamp is a date, `T` or a blank, and a time of day with a fraction of up to
nine digits, which may be left out.  It is taken for a timestamp by this form alone;
whether what follows is an offset and whether there is such a date and time shows
when it is read.
-/

namespace SeriesQuery.Csv

/-- Reads a number of exactly `count` digits. -/
def number? (count : Nat) (cs : List Char) : Option (Nat × List Char) :=
  let ds := cs.take count
  if ds.length = count ∧ ds.all Char.isDigit then some (Digits.value ds, cs.drop count) else none

/-- Reads one of some characters. -/
def oneOf? (marks : List Char) : List Char → Option (List Char)
  | c :: cs => if c ∈ marks then some cs else none
  | [] => none

/-- Reads a date of the form `YYYY-MM-DD`, which need not be in the calendar. -/
def date? (cs : List Char) : Option (Date × List Char) := do
  let (year, cs) ← number? 4 cs
  let cs ← oneOf? ['-'] cs
  let (month, cs) ← number? 2 cs
  let cs ← oneOf? ['-'] cs
  let (day, cs) ← number? 2 cs
  some (⟨year, month, day⟩, cs)

/-- The parts of a timestamp. -/
structure TimestampText where
  date : Date
  hour : Nat
  minute : Nat
  second : Nat
  /-- The digits of the fraction. -/
  fraction : List Char
  /-- What follows. -/
  rest : List Char

namespace TimestampText

/-- Whether a time may end before what follows: not inside its number, and not where
a line ends later on. -/
def endsTime (fraction rest : List Char) : Bool :=
  rest.all (· != '\n') &&
    (fraction != [] || !(rest.head?.any fun c => c == '.' || c.isDigit))

def read? (cs : List Char) : Option TimestampText := do
  let (date, cs) ← date? cs
  let cs ← oneOf? ['T', ' '] cs
  let (hour, cs) ← number? 2 cs
  let cs ← oneOf? [':'] cs
  let (minute, cs) ← number? 2 cs
  let cs ← oneOf? [':'] cs
  let (second, cs) ← number? 2 cs
  let (fraction, rest) :=
    match cs with
    | '.' :: c :: cs => if c.isDigit then Digits.span (c :: cs) else ([], '.' :: c :: cs)
    | cs => ([], cs)
  if endsTime fraction rest ∧ fraction.length ≤ 9 then
    some ⟨date, hour, minute, second, fraction, rest⟩
  else none

/-- The unit that the fraction is counted in. -/
def unit (t : TimestampText) : TimeUnit :=
  if t.fraction = [] then .second
  else if t.fraction.length ≤ 3 then .milli
  else if t.fraction.length ≤ 6 then .micro
  else .nano

/-- The seconds of a fixed offset: a sign, two digits of hours and, after an
optional colon, two of minutes, which may be left out. -/
def fixedOffset? (cs : List Char) : Option Int := do
  let negative ← match cs with
    | '+' :: _ => some false
    | '-' :: _ => some true
    | _ => none
  let (hours, rest) ← number? 2 (cs.drop 1)
  let minutes ←
    match rest with
    | [] => some 0
    | ':' :: rest => (number? 2 rest).bind fun (m, rest) => if rest = [] then some m else none
    | rest => (number? 2 rest).bind fun (m, rest) => if rest = [] then some m else none
  let seconds : Int := (hours * 3600 + minutes * 60 : Nat)
  if seconds < secondsPerDay then some (if negative then -seconds else seconds) else none

/-- The seconds of the offset that follows. -/
def offset? (t : TimestampText) : Option Int :=
  if t.rest = [] ∨ t.rest = ['Z'] ∨ t.rest = ['z'] then some 0
  else fixedOffset? (Text.trimStart t.rest)

/-- The count of a unit since the start of 1970, if there is such a date and time.
A sixtieth second belongs to the one before it, with a fraction above one. -/
def count? (unit : TimeUnit) (t : TimestampText) : Option Int :=
  if t.date.Exists ∧ t.hour < 24 ∧ t.minute < 60 ∧ t.second ≤ 60 then
    (t.offset?).map fun offset =>
      let second : Int := (t.hour * 3600 + t.minute * 60 + min t.second 59 : Nat)
      let nanos : Int :=
        (Digits.value t.fraction * Nat.pow 10 (9 - t.fraction.length) : Nat) +
          if t.second = 60 then nanosPerSecond else 0
      (t.date.toDays * secondsPerDay + second - offset) * (nanosPerSecond / unit.nanos) +
        nanos / unit.nanos
  else none

end TimestampText

end SeriesQuery.Csv
