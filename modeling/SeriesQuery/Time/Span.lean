import SeriesQuery.Number.Digits
import SeriesQuery.Time.Instant

/-!
# Spans of time

A span is a number of whole seconds below `2^64` and of nanoseconds below a
milliard.

`Span.describe` writes a span in units from years down to nanoseconds, leaving
out those that are zero; a year has 365.25 days and a month 30.44.
`Span.compact` writes it in one unit with a decimal fraction, the largest of
seconds, milliseconds, microseconds and nanoseconds that is not zero.
-/

namespace SeriesQuery

/-- A length of time. -/
structure Span where
  /-- The whole seconds. -/
  seconds : Nat
  /-- The nanoseconds beyond them. -/
  nanos : Nat
  seconds_lt : seconds < 18446744073709551616
  nanos_lt : nanos < 1000000000
deriving DecidableEq

namespace Span

/-- The span of the given seconds and nanoseconds, if it is one. -/
def of? (seconds nanos : Nat) : Option Span :=
  if h : seconds < 18446744073709551616 ∧ nanos < 1000000000 then
    some ⟨seconds, nanos, h.1, h.2⟩
  else none

def zero : Span := ⟨0, 0, by decide, by decide⟩

/-- A number of whole seconds. -/
def ofSeconds (n : UInt32) : Span := ⟨n.toNat, 0, by have := n.toNat_lt; omega, by decide⟩

/-- A number of milliseconds. -/
def ofMillis (n : UInt64) : Span :=
  ⟨n.toNat / 1000, n.toNat % 1000 * 1000000, by have := n.toNat_lt; omega, by omega⟩

/-- Whether the span is empty. -/
def isZero (s : Span) : Bool := s.seconds == 0 && s.nanos == 0

/-- Whether the span is a whole number of seconds, and not zero. -/
def isWholeSeconds (s : Span) : Bool := s.seconds != 0 && s.nanos == 0

/-! ## In units -/

/-- A number with its unit, nothing for zero.  A word takes an `s` in the plural,
a symbol does not. -/
def item (n : Nat) (unit : String) (word : Bool) : List String :=
  if n = 0 then [] else [toString n ++ unit ++ if word && n != 1 then "s" else ""]

/-- Seconds of a year. -/
def yearSeconds : Nat := 31557600

/-- Seconds of a month. -/
def monthSeconds : Nat := 2630016

/-- A span in units, the largest first; `0s` for none. -/
def describe (s : Span) : String :=
  let inYear := s.seconds % yearSeconds
  let inMonth := inYear % monthSeconds
  let items :=
    item (s.seconds / yearSeconds) "year" true ++ item (inYear / monthSeconds) "month" true ++
      item (inMonth / 86400) "day" true ++ item (inMonth % 86400 / 3600) "h" false ++
      item (inMonth % 3600 / 60) "m" false ++ item (inMonth % 60) "s" false ++
      item (s.nanos / 1000000) "ms" false ++ item (s.nanos / 1000 % 1000) "us" false ++
      item (s.nanos % 1000) "ns" false
  if items = [] then "0s" else String.intercalate " " items

/-! ## In one unit -/

/-- Drops the zeros at the end of a text. -/
def dropZeros (cs : List Char) : List Char := (cs.reverse.dropWhile (· == '0')).reverse

/-- A number with `places` decimal places taken from `rest`, without the zeros
at its end. -/
def decimal (whole rest places : Nat) : String :=
  let fraction := dropZeros (Digits.padded places rest)
  String.ofList (Digits.ofNat whole ++ if fraction = [] then [] else '.' :: fraction)

/-- A span in its largest unit that is not zero. -/
def compact (s : Span) : String :=
  if s.seconds ≠ 0 then decimal s.seconds s.nanos 9 ++ "s"
  else if 1000000 ≤ s.nanos then decimal (s.nanos / 1000000) (s.nanos % 1000000) 6 ++ "ms"
  else if 1000 ≤ s.nanos then decimal (s.nanos / 1000) (s.nanos % 1000) 3 ++ "µs"
  else toString s.nanos ++ "ns"

end Span

end SeriesQuery
