import Mathlib.Data.Nat.Digits.Defs
import SeriesQuery.Proofs.Number.Numeral
import SeriesQuery.Proofs.Time.Calendar
import SeriesQuery.Proofs.Time.Order
import SeriesQuery.Time.Rfc3339

/-!
# Instants read back

Every instant is read from what is written of it (`read?_write`), whatever its year, its fraction
of a second, and whether it lies in a leap second.

The reader takes the parts of a text one after the other, so there is a lemma for each part with
any text behind it.  Numbers are filled up with zeros to the width up to which the reader looks for
digits, so that it takes all their digits and no more.  Only in a signed year and in a fraction it
takes all the digits it finds, and there no digit may follow.  The parts are put together again by
the calendar (`Date.toDays_ofDays`), and a leap second by being the only one that is written as
second 60 (`assemble?_parts`).
-/

namespace SeriesQuery

namespace Digits

theorem areDigits_padded (width n : Nat) : Numeral.AreDigits (padded width n) := by
  refine Numeral.areDigits_iff.mpr (List.forall_mem_append.mpr ⟨fun c hc => ?_, fun c hc => ?_⟩)
  · rw [List.eq_of_mem_replicate hc]
    rfl
  · exact isDigit_of_mem_ofNat hc

theorem padded_ne_nil (width n : Nat) : padded width n ≠ [] :=
  List.append_ne_nil_of_right_ne_nil _ (ofNat_ne_nil n)

theorem length_padded {width n : Nat} (hpos : 0 < width) (h : n < 10 ^ width) :
    (padded width n).length = width := by
  have hle : (ofNat n).length ≤ width := Nat.toDigits_length 10 n width hpos h
  simp only [padded, List.length_append, List.length_replicate]
  omega

/-- What is filled up starts with a digit. -/
theorem exists_padded_cons (width n : Nat) :
    ∃ c rest, padded width n = c :: rest ∧ c.isDigit = true := by
  obtain ⟨c, rest, hcons⟩ := List.exists_cons_of_ne_nil (padded_ne_nil width n)
  have hdigits := Numeral.areDigits_iff.mp (areDigits_padded width n)
  rw [hcons] at hdigits
  exact ⟨c, rest, hcons, hdigits c List.mem_cons_self⟩

end Digits

theorem Text.trimStart_padded (width n : Nat) (rest : List Char) :
    trimStart (Digits.padded width n ++ rest) = Digits.padded width n ++ rest := by
  obtain ⟨c, ds, hcons, hc⟩ := Digits.exists_padded_cons width n
  rw [hcons]
  exact trimStart_cons (isBlank_of_isDigit hc) _

namespace Rfc3339

open Digits Numeral

/-! ## Numbers -/

theorem digits?_padded {width n : Nat} (hpos : 0 < width) (h : n < 10 ^ width)
    (rest : List Char) : digits? width (padded width n ++ rest) = some (n, rest) := by
  have hlength := length_padded hpos h
  have htake : (padded width n ++ rest).take width = padded width n := by
    rw [List.take_append_of_le_length hlength.ge, List.take_of_length_le hlength.le]
  have hdigits : (padded width n).takeWhile Char.isDigit = padded width n :=
    List.takeWhile_eq_self_iff.mpr (areDigits_iff.mp (areDigits_padded width n))
  have hdrop : (padded width n ++ rest).drop (padded width n).length = rest := List.drop_left
  rw [digits?, htake, hdigits, hdrop, value_padded, if_neg (padded_ne_nil width n)]

theorem allDigits?_padded (width n : Nat) {rest : List Char} (h : NoDigit rest) :
    allDigits? (padded width n ++ rest) = some (n, rest) := by
  rw [allDigits?, span_of_digits (areDigits_padded width n) h]
  dsimp only
  rw [value_padded, if_neg (padded_ne_nil width n)]

theorem readTwo?_padded {n : Nat} (h : n < 100) (rest : List Char) :
    readTwo? (padded 2 n ++ rest) = some (n, rest) := by
  rw [readTwo?, Text.trimStart_padded, digits?_padded (by decide) h]

theorem readMark?_cons {mark : Char} (h : Text.isBlank mark = false) (rest : List Char) :
    readMark? mark (mark :: rest) = some rest := by
  rw [readMark?, Text.trimStart_cons h]
  exact if_pos rfl

/-! ## Years and fractions -/

/-- Without a sign only the four digits of a year are read. -/
theorem readYear?_of_unsigned {n : Nat} (h : n < 10000) (rest : List Char) :
    readYear? (padded 4 n ++ rest) = some ((n : Int), rest) := by
  have hread : digits? 4 (padded 4 n ++ rest) = some (n, rest) :=
    digits?_padded (by decide) h rest
  obtain ⟨c, ds, hcons, hc⟩ := exists_padded_cons 4 n
  rw [readYear?, Text.trimStart_padded]
  rw [hcons] at hread ⊢
  split
  next heq =>
    cases heq
    cases hc
  next heq =>
    cases heq
    cases hc
  next => rw [hread]; rfl

theorem readYear?_minus (cs : List Char) :
    readYear? ('-' :: cs) = (allDigits? cs).map fun p => (-(p.1 : Int), p.2) := by
  rw [readYear?, Text.trimStart_cons (by decide)]
  rfl

theorem readYear?_plus (cs : List Char) :
    readYear? ('+' :: cs) = (allDigits? cs).map fun p => ((p.1 : Int), p.2) := by
  rw [readYear?, Text.trimStart_cons (by decide)]
  rfl

theorem readYear?_year (y : Int) {rest : List Char} (h : NoDigit rest) :
    readYear? (year y ++ rest) = some (y, rest) := by
  rw [year]
  split
  next hrange =>
    rw [readYear?_of_unsigned (by omega), Int.natAbs_of_nonneg hrange.1]
  next hrange =>
    split
    next hneg =>
      have habs : -(y.natAbs : Int) = y := by omega
      rw [List.cons_append, readYear?_minus, allDigits?_padded 4 _ h, Option.map_some, habs]
    next hpos =>
      have habs : (y.natAbs : Int) = y := by omega
      rw [List.cons_append, readYear?_plus, allDigits?_padded 4 _ h, Option.map_some, habs]

/-- Digits behind the point count as so many digits of nine. -/
theorem readFraction?_padded {width n : Nat} (hpos : 0 < width) (hwidth : width ≤ 9)
    (hn : n < 10 ^ width) {rest : List Char} (h : NoDigit rest) :
    readFraction? ('.' :: (padded width n ++ rest)) = some (n * 10 ^ (9 - width), rest) := by
  have hlength := length_padded hpos hn
  have htake : (padded width n).take 9 = padded width n :=
    List.take_of_length_le (hlength.trans_le hwidth)
  rw [readFraction?, span_of_digits (areDigits_padded width n) h]
  dsimp only
  rw [if_neg (padded_ne_nil width n), htake, value_padded, hlength]
  rfl

/-- No fraction loses a digit: where fewer than nine are written, the others are zero. -/
theorem readFraction?_fraction {nanos : Nat} (hnanos : nanos < 1000000000) {rest : List Char}
    (h : NoDigit rest) (hpoint : ∀ cs, rest ≠ '.' :: cs) :
    readFraction? (fraction nanos ++ rest) = some (nanos, rest) := by
  rw [fraction]
  split
  next hzero =>
    rw [hzero, List.nil_append, readFraction?]
    exact hpoint
  next =>
    split
    next hmillis =>
      rw [List.cons_append, readFraction?_padded (by decide) (by decide) (by omega) h]
      congr 2
      omega
    next =>
      split
      next hmicros =>
        rw [List.cons_append, readFraction?_padded (by decide) (by decide) (by omega) h]
        congr 2
        omega
      next =>
        rw [List.cons_append, readFraction?_padded (by decide) (by decide) hnanos h]
        congr 2
        omega

/-! ## Instants -/

theorem noDigit_cons {c : Char} (h : c.isDigit = false) (cs : List Char) : NoDigit (c :: cs) := by
  intro d hd
  cases hd
  exact h

theorem bind_of_eq {α β : Type} {x : Option α} {a : α} (h : x = some a) (f : α → Option β) :
    (x >>= f) = f a := by
  rw [h]
  rfl

/-- A date and a time of day are read part by part, and then put together. -/
theorem read?_parts {d : Date} (hd : d.Exists) {hour minute second nanos : Nat} (hhour : hour < 100)
    (hminute : minute < 100) (hsecond : second < 100) (hnanos : nanos < 1000000000) :
    read? (date d ++ 'T' :: (padded 2 hour ++ ':' :: padded 2 minute ++ ':' :: padded 2 second ++
      fraction nanos) ++ ['Z']) = assemble? d hour minute second nanos 0 := by
  obtain ⟨-, hmonth, -, hday⟩ := hd
  have hmonth' : d.month < 100 := by omega
  have hlength := Date.daysInMonth_le d.year d.month
  have hday' : d.day < 100 := by omega
  have hdash : Text.isBlank '-' = false := by decide
  have hcolon : Text.isBlank ':' = false := by decide
  have hoffset : readOffset? (Text.trimStart ['Z']) = some (0, []) := by decide
  have hfraction : readFraction? (fraction nanos ++ ['Z']) = some (nanos, ['Z']) :=
    readFraction?_fraction hnanos (noDigit_cons (by decide) []) nofun
  simp only [date, List.append_assoc, List.cons_append]
  -- One step for each part that the reader takes.
  refine (bind_of_eq (readYear?_year d.year (noDigit_cons (by decide) _)) _).trans ?_
  refine (bind_of_eq (readMark?_cons hdash _) _).trans ?_
  refine (bind_of_eq (readTwo?_padded hmonth' _) _).trans ?_
  refine (bind_of_eq (readMark?_cons hdash _) _).trans ?_
  refine (bind_of_eq (readTwo?_padded hday' _) _).trans ?_
  refine (if_pos (.inl rfl)).trans ?_
  refine (bind_of_eq (readTwo?_padded hhour _) _).trans ?_
  refine (bind_of_eq (readMark?_cons hcolon _) _).trans ?_
  refine (bind_of_eq (readTwo?_padded hminute _) _).trans ?_
  refine (bind_of_eq (readMark?_cons hcolon _) _).trans ?_
  refine (bind_of_eq (readTwo?_padded hsecond _) _).trans ?_
  refine (bind_of_eq hfraction _).trans ?_
  refine (bind_of_eq hoffset _).trans ?_
  exact if_pos rfl

/-- Either the second is written as it is, or it is second 59 and is written as one more, and its
nanoseconds without those of a whole second. -/
theorem leap_cases (t : Instant) :
    (if nanosPerSecond ≤ t.nano then 1 else 0) = 0 ∧ t.nano % nanosPerSecond = t.nano ∨
      (if nanosPerSecond ≤ t.nano then 1 else 0) = 1 ∧
        t.nano % nanosPerSecond + nanosPerSecond = t.nano ∧
          (t.second % secondsPerDay).toNat % 60 = 59 := by
  have hnano := t.nano_lt
  by_cases h : nanosPerSecond ≤ t.nano
  · right
    have hlast := t.leap h
    rw [if_pos h]
    unfold nanosPerSecond secondsPerDay at *
    omega
  · left
    rw [if_neg h]
    exact ⟨rfl, Nat.mod_eq_of_lt (Nat.not_le.mp h)⟩

/-- The parts of an instant are put together to it.  A leap second is the one that is written as
second 60. -/
theorem assemble?_parts (t : Instant) :
    assemble? (Date.ofDays (t.second / secondsPerDay)) ((t.second % secondsPerDay).toNat / 3600)
      ((t.second % secondsPerDay).toNat / 60 % 60)
      ((t.second % secondsPerDay).toNat % 60 + if nanosPerSecond ≤ t.nano then 1 else 0)
      (t.nano % nanosPerSecond) 0 = some t := by
  have hge := t.second_ge
  have hle := t.second_le
  have hexists := Date.exists_ofDays (t.second / secondsPerDay)
  have hday : t.second / secondsPerDay * secondsPerDay + (t.second % secondsPerDay).toNat =
      t.second := by
    unfold secondsPerDay
    omega
  have hlt : (t.second % secondsPerDay).toNat < 86400 := by
    unfold secondsPerDay
    omega
  have hleap := leap_cases t
  generalize (if nanosPerSecond ≤ t.nano then 1 else 0) = leap at hleap ⊢
  generalize (t.second % secondsPerDay).toNat = secondOfDay at hday hlt hleap ⊢
  have hsixty : (if secondOfDay % 60 + leap = 60 then 1 else 0) = leap := by
    split <;> omega
  have hclock : secondOfDay / 3600 * 3600 + secondOfDay / 60 % 60 * 60 +
      (secondOfDay % 60 + leap - leap) = secondOfDay := by omega
  have hnanos : t.nano % nanosPerSecond + leap * nanosPerSecond = t.nano := by
    rcases hleap with ⟨rfl, h⟩ | ⟨rfl, h, -⟩
    · rw [Nat.zero_mul, Nat.add_zero, h]
    · rw [Nat.one_mul, h]
  simp only [assemble?, Date.toDays_ofDays, hsixty, hclock, hday, hnanos, Int.sub_zero]
  rw [if_pos]
  · exact Instant.of?_eq_some_iff.mpr ⟨rfl, rfl⟩
  · exact ⟨hexists, by omega, by omega, by omega, by decide, hge, hle⟩

/-- Every instant is read from what is written of it. -/
theorem read?_write (t : Instant) : read? (write t).toList = some t := by
  have hnano := t.nano_lt
  have hdate := Date.exists_ofDays (t.second / secondsPerDay)
  have hmod : (t.second % secondsPerDay).toNat < 86400 := by
    unfold secondsPerDay
    omega
  have hfraction : t.nano % nanosPerSecond < 1000000000 := Nat.mod_lt _ (by decide)
  rw [← assemble?_parts t, write, String.toList_ofList, localText, clock]
  exact read?_parts hdate (by omega) (by omega) (by split <;> omega) hfraction

/-! ## Characters -/

/-- The characters that are written beside digits. -/
def marks : List Char := ['+', '-', '.', ':', 'T', 'Z']

theorem mem_padded {width n : Nat} : ∀ c ∈ padded width n, c.isDigit = true ∨ c ∈ marks :=
  fun c hc => .inl (areDigits_iff.mp (areDigits_padded width n) c hc)

theorem mem_year (y : Int) : ∀ c ∈ year y, c.isDigit = true ∨ c ∈ marks := by
  rw [year]
  split
  next => exact mem_padded
  next => exact List.forall_mem_cons.mpr ⟨.inr (by split <;> decide), mem_padded⟩

theorem mem_fraction (nanos : Nat) : ∀ c ∈ fraction nanos, c.isDigit = true ∨ c ∈ marks := by
  have hpoint : ∀ width n, ∀ c ∈ '.' :: padded width n, c.isDigit = true ∨ c ∈ marks :=
    fun width n => List.forall_mem_cons.mpr ⟨.inr (by decide), mem_padded⟩
  rw [fraction]
  split
  next => exact nofun
  next =>
    split
    next => exact hpoint _ _
    next =>
      split
      next => exact hpoint _ _
      next => exact hpoint _ _

theorem mem_date (d : Date) : ∀ c ∈ date d, c.isDigit = true ∨ c ∈ marks := by
  have hdash : '-' ∈ marks := by decide
  simp only [date, List.forall_mem_append, List.forall_mem_cons]
  exact ⟨⟨mem_year _, .inr hdash, mem_padded⟩, .inr hdash, mem_padded⟩

theorem mem_clock (secondOfDay nanos : Nat) :
    ∀ c ∈ clock secondOfDay nanos, c.isDigit = true ∨ c ∈ marks := by
  have hcolon : ':' ∈ marks := by decide
  simp only [clock, List.forall_mem_append, List.forall_mem_cons]
  exact ⟨⟨⟨mem_padded, .inr hcolon, mem_padded⟩, .inr hcolon, mem_padded⟩, mem_fraction _⟩

theorem mem_localText (t : Instant) : ∀ c ∈ localText t, c.isDigit = true ∨ c ∈ marks :=
  List.forall_mem_append.mpr
    ⟨mem_date _, List.forall_mem_cons.mpr ⟨.inr (by decide), mem_clock _ _⟩⟩

end Rfc3339

end SeriesQuery
