import SeriesQuery.Time.Calendar

/-!
# Instants

A point of time on the UTC scale, by the second it lies in, counted from the
start of 1970 without leap seconds, and the nanoseconds since the start of that
second.  A leap second has no number of its own: it prolongs the last second of
its minute, so nanoseconds from a milliard up to two milliards stand for it.

Instants lie in the years -262143 to 262142.  They are ordered by second and
then by nanosecond, which is the order in which they pass.
-/

namespace SeriesQuery

/-- Nanoseconds of a second. -/
def nanosPerSecond : Nat := 1000000000

def secondsPerDay : Int := 86400

/-- A point of time. -/
structure Instant where
  /-- Seconds since the start of 1970, leap seconds not counted. -/
  second : Int
  /-- Nanoseconds since the start of the second. -/
  nano : Nat
  second_ge : -8334601228800 ≤ second
  second_le : second ≤ 8210266876799
  nano_lt : nano < 2000000000
  leap : 1000000000 ≤ nano → second % 60 = 59
deriving DecidableEq

namespace Instant

/-- The first second of the year -262143. -/
def firstSecond : Int := -8334601228800

/-- The last second of the year 262142. -/
def lastSecond : Int := 8210266876799

/-- The instant of a second and nanoseconds, if there is one. -/
def of? (second : Int) (nano : Nat) : Option Instant :=
  if h : (-8334601228800 ≤ second ∧ second ≤ 8210266876799) ∧ nano < 2000000000 ∧
      (1000000000 ≤ nano → second % 60 = 59) then
    some ⟨second, nano, h.1.1, h.1.2, h.2.1, h.2.2⟩
  else none

/-- The instant at which a second starts. -/
def ofSecond? (second : Int) : Option Instant := of? second 0

/-- The instant of the given nanoseconds since the start of 1970. -/
def ofNanos? (nanos : Int) : Option Instant :=
  of? (nanos / nanosPerSecond) (nanos % nanosPerSecond).toNat

/-- Earlier by second, or by nanosecond in the same second. -/
instance : LT Instant := ⟨fun s t => s.second < t.second ∨ s.second = t.second ∧ s.nano < t.nano⟩

instance (s t : Instant) : Decidable (s < t) :=
  inferInstanceAs (Decidable (s.second < t.second ∨ s.second = t.second ∧ s.nano < t.nano))

/-- Whether the instant lies in a leap second. -/
def isLeap (t : Instant) : Bool := decide (nanosPerSecond ≤ t.nano)

/-- The instant a positive number of seconds earlier, if there is one.  One in a
leap second is first moved into the second that follows it. -/
def before? (t : Instant) (seconds : Nat) : Option Instant :=
  if t.isLeap then of? (t.second + 1 - seconds) (t.nano - nanosPerSecond)
  else of? (t.second - seconds) t.nano

theorem lt_iff {s t : Instant} :
    s < t ↔ s.second < t.second ∨ s.second = t.second ∧ s.nano < t.nano := Iff.rfl

theorem lt_irrefl (t : Instant) : ¬ t < t := by
  rw [lt_iff]; omega

theorem eq_of_not_lt {s t : Instant} (h₁ : ¬ s < t) (h₂ : ¬ t < s) : s = t := by
  rw [lt_iff] at *
  obtain ⟨a, b⟩ := s
  obtain ⟨c, d⟩ := t
  simp only [mk.injEq]
  simp only at h₁ h₂
  omega

end Instant

/-- A span of time between two instants, both of which belong to it. -/
structure TimeRange where
  start : Instant
  stop : Instant
deriving DecidableEq

end SeriesQuery
