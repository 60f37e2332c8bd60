import SeriesQuery.Number.Numeral
import SeriesQuery.Time.Calendar

/-!
# Words of TOML: numbers, truth values and times

A word is a value without marks or brackets.  Whole numbers are decimal, with an
optional sign and no zero before other digits, or have a prefix for another base;
they have to fit 64 signed bits.  Other numbers have a fraction or an exponent, and
must not be too great for a double.  Single underscores may stand between digits.
A date is followed by nothing, or by a time and then by an offset or not; a time of
day may stand alone.
-/

namespace SeriesQuery.Toml

/-- Whether a character may stand in a word. -/
def isWordChar (c : Char) : Bool := c.isAlphanum || c ∈ ['_', '+', '-', '.', ':']

/-! ## Numbers -/

/-- Drops the underscores of digits, each of which has to stand between two
digits. -/
def digits? (isDigit : Char → Bool) : List Char → Option (List Char)
  | [] => none
  | [c] => if isDigit c then some [c] else none
  | c :: '_' :: cs => if isDigit c then (digits? isDigit cs).map (c :: ·) else none
  | c :: cs => if isDigit c then (digits? isDigit cs).map (c :: ·) else none

/-- Drops the underscores of a decimal number, which has no zero before other
digits. -/
def decimal? (cs : List Char) : Option (List Char) :=
  match digits? Char.isDigit cs with
  | some ('0' :: _ :: _) => none
  | found => found

/-- A word without its sign. -/
def unsigned (cs : List Char) : List Char := (Digits.splitSign cs).2

/-- Whether a character is a digit of a base up to sixteen. -/
def isDigitOf (base : Nat) (c : Char) : Bool :=
  if c.isDigit then c.toNat - '0'.toNat < base
  else base = 16 && (('a' ≤ c && c ≤ 'f') || ('A' ≤ c && c ≤ 'F'))

def digitValue (c : Char) : Nat :=
  if c.isDigit then c.toNat - '0'.toNat else c.toLower.toNat - 'a'.toNat + 10

/-- The whole number of digits of a base. -/
def inBase? (base : Nat) (cs : List Char) : Option Int :=
  (digits? (isDigitOf base) cs).map fun ds => (ds.foldl (fun n c => n * base + digitValue c) 0 : Nat)

def whole? (cs : List Char) : Option Int :=
  match cs with
  | '0' :: 'x' :: ds => inBase? 16 ds
  | '0' :: 'o' :: ds => inBase? 8 ds
  | '0' :: 'b' :: ds => inBase? 2 ds
  | cs => (decimal? (unsigned cs)).map fun ds =>
      if (Digits.splitSign cs).1 then -(Digits.value ds : Int) else Digits.value ds

/-- Whether a word is a whole number that fits 64 signed bits. -/
def isWhole (cs : List Char) : Bool := ((whole? cs).bind Digits.toInt64?).isSome

/-- Whether a text is empty or an exponent with its letter. -/
def isExponent : List Char → Bool
  | [] => true
  | c :: cs => (c == 'e' || c == 'E') && (digits? Char.isDigit (unsigned cs)).isSome

/-- Whether a character is a digit or an underscore. -/
def isDigitPart (c : Char) : Bool := c.isDigit || c == '_'

/-- Whether a text is a fraction with its point, with an exponent or without. -/
def isFraction : List Char → Bool
  | '.' :: cs =>
    (digits? Char.isDigit (cs.takeWhile isDigitPart)).isSome && isExponent (cs.dropWhile isDigitPart)
  | _ => false

/-- Whether a number written out is too great for a double. -/
def isTooGreat (cs : List Char) : Bool :=
  Numeral.read? (cs.filter (· != '_')) == some (Binary64.infinity false)

/-- Whether a word is a number with a fraction or an exponent, or one of the words
for what is not finite. -/
def isFloat (cs : List Char) : Bool :=
  let body := unsigned cs
  let rest := body.dropWhile isDigitPart
  body = "inf".toList || body = "nan".toList ||
    ((decimal? (body.takeWhile isDigitPart)).isSome && rest != [] &&
      (isFraction rest || isExponent rest) && !isTooGreat cs)

/-! ## Times -/

/-- Whether a text is two digits with a number of at most `most`. -/
def isTwo (most : Nat) (cs : List Char) : Bool :=
  cs.length == 2 && cs.all Char.isDigit && Digits.value cs ≤ most

def isDate (cs : List Char) : Bool :=
  match cs with
  | [a, b, c, d, '-', e, f, '-', g, h] =>
    [a, b, c, d, e, f, g, h].all Char.isDigit &&
      decide (Date.Exists ⟨Digits.value [a, b, c, d], Digits.value [e, f], Digits.value [g, h]⟩)
  | _ => false

/-- Reads a time of day, and gives what follows it. -/
def behindClock? (cs : List Char) : Option (List Char) :=
  let two (start most : Nat) : Bool := isTwo most ((cs.drop start).take 2)
  if two 0 23 && cs[2]? == some ':' && two 3 59 && cs[5]? == some ':' && two 6 60 then
    match cs.drop 8 with
    | '.' :: rest =>
      let (ds, rest) := Digits.span rest
      if ds = [] then none else some rest
    | rest => some rest
  else none

/-- Whether a text is an offset, or empty. -/
def isOffset (cs : List Char) : Bool :=
  match cs with
  | [] => true
  | ['Z'] => true
  | ['z'] => true
  | sign :: rest =>
    (sign == '+' || sign == '-') && rest.length == 5 && isTwo 23 (rest.take 2) &&
      rest[2]? == some ':' && isTwo 59 (rest.drop 3)

/-- Whether a text is a time of day that follows a date. -/
def isClockOfDate (cs : List Char) : Bool := ((behindClock? cs).map isOffset).getD false

/-- Whether a word is a time: a date, one with a time of day, or a time of day. -/
def isTime (cs : List Char) : Bool :=
  behindClock? cs == some [] ||
    (isDate (cs.take 10) &&
      match cs.drop 10 with
      | [] => true
      | c :: clock => (c == 'T' || c == 't' || c == ' ') && isClockOfDate clock)

/-- The word at the front of a text, and the rest.  The time of day after a date and
a blank belongs to the word. -/
def word (cs : List Char) : List Char × List Char :=
  let first := cs.takeWhile isWordChar
  let rest := cs.dropWhile isWordChar
  match rest with
  | ' ' :: clock =>
    let next := clock.takeWhile isWordChar
    if isDate first ∧ (next.head?.any Char.isDigit) then
      (first ++ ' ' :: next, clock.dropWhile isWordChar)
    else (first, rest)
  | rest => (first, rest)

end SeriesQuery.Toml
