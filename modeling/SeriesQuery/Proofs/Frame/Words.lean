import SeriesQuery.Proofs.Frame.BucketRows

/-!
# Filling in words of 64 bits

`Frame.fillInWords` is filling with the numbers as words, signed and unsigned, and with the loop
that goes on as long as a bucket starts in the range.  Where words are checked it is filling
itself, so filling has every fault that it could have, and this is the one of `Fill.Exceeds`.
Where words wrap, the number of the buckets may then come out wrong, but this is no matter: the
first bucket starts at no instant, and the answer is the one that exact numbers give
(`Frame.fill_in_words`).
-/

namespace SeriesQuery

open Word (Fits fits_iff)

namespace Fill

/-! ## Words -/

/-- What becomes of a result that is no word. -/
inductive Overflow where
  | wraps
  /-- It is a fault. -/
  | faults
deriving DecidableEq

theorem fits_of_pos {n : Int} (hpos : 0 < n) (hle : n ≤ Digits.maxInt64) : Fits n :=
  fits_iff.mpr ⟨by omega, hle⟩

namespace Overflow

/-- The result of an operation as a signed word. -/
def int64 (o : Overflow) (operation : Word.Operation) (n : Int) : Except ConversionError Int64 :=
  if o = .faults ∧ ¬ Fits n then .error (.overflow operation) else .ok (Int64.ofInt n)

/-- The result of an operation as an unsigned word. -/
def uint64 (o : Overflow) (operation : Word.Operation) (n : Nat) : Except ConversionError UInt64 :=
  if o = .faults ∧ ¬ n < UInt64.size then .error (.overflow operation) else .ok (UInt64.ofNat n)

end Overflow

theorem toInt_ofInt {n : Int} (h : Fits n) : (Int64.ofInt n).toInt = n := by
  obtain ⟨hge, hle⟩ := fits_iff.mp h
  exact Int64.toInt_ofInt_of_le (by omega) (by omega)

theorem fits_toInt (word : Int64) : Fits word.toInt := by
  have := word.le_toInt
  have := word.toInt_lt
  rw [fits_iff]
  omega

theorem fits_second (t : Instant) : Fits t.second := by
  have := t.second_ge
  have := t.second_le
  rw [fits_iff]
  omega

theorem ofInt_lt_ofInt_iff {m n : Int} (hm : Fits m) (hn : Fits n) :
    Int64.ofInt m < Int64.ofInt n ↔ m < n := by
  rw [Int64.lt_iff_toInt_lt, toInt_ofInt hm, toInt_ofInt hn]

theorem ofInt_le_ofInt_iff {m n : Int} (hm : Fits m) (hn : Fits n) :
    Int64.ofInt m ≤ Int64.ofInt n ↔ m ≤ n := by
  rw [Int64.le_iff_toInt_le, toInt_ofInt hm, toInt_ofInt hn]

variable {o : Overflow} {operation : Word.Operation}

theorem int64_of_fits {n : Int} (h : Fits n) : o.int64 operation n = .ok (Int64.ofInt n) :=
  if_neg fun hn => hn.2 h

theorem uint64_of_lt {n : Nat} (h : n < UInt64.size) :
    o.uint64 operation n = .ok (UInt64.ofNat n) := if_neg fun hn => hn.2 h

theorem int64_wraps (n : Int) : Overflow.wraps.int64 operation n = .ok (Int64.ofInt n) :=
  if_neg fun hn => nomatch hn.1

theorem uint64_wraps (n : Nat) : Overflow.wraps.uint64 operation n = .ok (UInt64.ofNat n) :=
  if_neg fun hn => nomatch hn.1

theorem eq_ofInt_of_int64 {n : Int} {word : Int64} (h : o.int64 operation n = .ok word) :
    word = Int64.ofInt n := by
  rw [Overflow.int64] at h
  split at h
  next => cases h
  next => exact (Except.ok.inj h).symm

/-! ## Filling -/

/-- A width of buckets as a word. -/
structure Step where
  word : Int64
  pos : 0 < word.toInt

namespace Step

/-- The width of a span, if it is a positive word. -/
def ofSpan? (interval : Span) : Option Step :=
  if h : 1 ≤ interval.seconds ∧ (interval.seconds : Int) ≤ Digits.maxInt64 then
    some ⟨Int64.ofInt interval.seconds, by
      rw [toInt_ofInt (fits_of_pos (by omega) h.2)]
      omega⟩
  else none

theorem ofSpan?_isSome {interval : Span} (hpos : 1 ≤ interval.seconds)
    (hle : (interval.seconds : Int) ≤ Digits.maxInt64) :
    ∃ step : Step, ofSpan? interval = some step ∧ step.word.toInt = interval.seconds :=
  ⟨_, dif_pos ⟨hpos, hle⟩, toInt_ofInt (fits_of_pos (by omega) hle)⟩

theorem le (step : Step) : step.word.toInt ≤ Digits.maxInt64 := (fits_toInt step.word).2

end Step

/-- The number of the buckets, from the unsigned distance of the ends. -/
def countInWords (o : Overflow) (start stop : Int64) (step : Step) :
    Except ConversionError UInt64 :=
  if stop < start then .ok 0
  else do
    let distance ← o.int64 .subtract (stop.toInt - start.toInt)
    o.uint64 .add (distance.toInt.natAbs / step.word.toInt.natAbs + 1)

/-- The seconds left of a range, none from a start that is no instant. -/
def left (stop second : Int64) : Nat :=
  if (Instant.ofSecond? second.toInt).isSome then (stop.toInt + 1 - second.toInt).toNat else 0

/-- The next start is later, or has wrapped to a second long before the first instant. -/
theorem left_lt {step : Step} {stop second next : Int64} {bucket : Instant}
    (h : second ≤ stop) (hbucket : Instant.ofSecond? second.toInt = some bucket)
    (hnext : o.int64 .add (second.toInt + step.word.toInt) = .ok next) :
    left stop next < left stop second := by
  obtain rfl := eq_ofInt_of_int64 hnext
  obtain ⟨hsecond, -⟩ := Instant.ofSecond?_eq_some_iff.mp hbucket
  have hfirst := bucket.second_ge
  have hlast := bucket.second_le
  have hpos := step.pos
  have hword := step.le
  rw [maxInt64_eq] at hword
  rw [Int64.le_iff_toInt_le] at h
  have hleft : left stop second = (stop.toInt + 1 - second.toInt).toNat := by
    rw [left, hbucket]
    rfl
  rw [hleft, left]
  split
  next hinstant =>
    obtain ⟨later, hlater⟩ := Option.isSome_iff_exists.mp hinstant
    obtain ⟨hnextSecond, -⟩ := Instant.ofSecond?_eq_some_iff.mp hlater
    have hge := later.second_ge
    by_cases hfits : Fits (second.toInt + step.word.toInt)
    · rw [toInt_ofInt hfits]
      omega
    -- the sum has wrapped once, so it is too early to be the second of `later`
    · have hwrapped : (Int64.ofInt (second.toInt + step.word.toInt)).toInt =
          second.toInt + step.word.toInt - 18446744073709551616 := by
        rw [fits_iff] at hfits
        have hsize : ((Int64.size : Nat) : Int) = 18446744073709551616 := rfl
        rw [Int64.toInt_ofInt, Int.bmod_def, hsize]
        omega
      omega
  next => omega

/-- Walks over the buckets until one starts after `stop`. -/
def walkInWords (o : Overflow) (source : List Field) (timeIndex : Nat) (policy : FillPolicy)
    (step : Step) (stop second : Int64) (pending : Pending) (fields : List Field) :
    Except ConversionError (List Field) :=
  if h : second ≤ stop then
    match hbucket : Instant.ofSecond? second.toInt with
    | none => .error (.timeOutOfRange second.toInt)
    | some bucket =>
      let pending := Pending.skipTo bucket pending.row pending.time pending.later
      match appendBucket source timeIndex policy bucket pending fields with
      | .error e => .error e
      | .ok (fields, pending) =>
        match hnext : o.int64 .add (second.toInt + step.word.toInt) with
        | .error e => .error e
        | .ok next =>
          have := left_lt h hbucket hnext
          walkInWords o source timeIndex policy step stop next pending fields
  else .ok fields
termination_by left stop second

section Turns

variable {source : List Field} {timeIndex : Nat} {policy : FillPolicy}
  {step : Step} {stop second next : Int64} {pending : Pending} {fields : List Field}

theorem walkInWords_of_not_le (h : ¬ second ≤ stop) :
    walkInWords o source timeIndex policy step stop second pending fields = .ok fields := by
  rw [walkInWords, dif_neg h]

theorem walkInWords_of_ofSecond? (h : second ≤ stop)
    (hbucket : Instant.ofSecond? second.toInt = none) :
    walkInWords o source timeIndex policy step stop second pending fields =
      .error (.timeOutOfRange second.toInt) := by
  rw [walkInWords, dif_pos h]
  split
  next => rfl
  next bucket hsome =>
    rw [hbucket] at hsome
    cases hsome

theorem walkInWords_turn {bucket : Instant} (h : second ≤ stop)
    (hbucket : Instant.ofSecond? second.toInt = some bucket)
    (hnext : o.int64 .add (second.toInt + step.word.toInt) = .ok next) :
    walkInWords o source timeIndex policy step stop second pending fields =
      match appendBucket source timeIndex policy bucket
        (Pending.skipTo bucket pending.row pending.time pending.later) fields with
      | .error e => .error e
      | .ok (fields, pending) =>
        walkInWords o source timeIndex policy step stop next pending fields := by
  rw [walkInWords, dif_pos h]
  split
  next hnone =>
    rw [hbucket] at hnone
    cases hnone
  next found hsome =>
    obtain rfl := Option.some.inj (hbucket.symm.trans hsome)
    dsimp only
    cases appendBucket source timeIndex policy bucket
        (Pending.skipTo bucket pending.row pending.time pending.later) fields with
    | error e => rfl
    | ok r =>
      dsimp only
      split
      next herror =>
        rw [hnext] at herror
        cases herror
      next later hlater =>
        obtain rfl := Except.ok.inj (hnext.symm.trans hlater)
        rfl

end Turns

end Fill

/-- Puts a series on the grid of buckets of a range by words of 64 bits. -/
def Frame.fillInWords (o : Fill.Overflow) (f : Frame) (timeIndex : Nat) (range : TimeRange)
    (interval : Span) (policy : FillPolicy) : Except ConversionError Frame :=
  match Fill.Step.ofSpan? interval with
  | none => .error .invalidInterval
  | some step => do
    let stop := Int64.ofInt range.stop.second
    let start ← o.int64 .multiply
      ((Int64.ofInt range.start.second).toInt / step.word.toInt * step.word.toInt)
    let count ← Fill.countInWords o start stop step
    if maxBuckets < count.toNat then .error (.tooManyBuckets count.toNat)
    else
      match f.times timeIndex with
      | .error e => .error e
      | .ok times =>
        if !Frame.timesAscend times then .error .notSortedByTime
        else
          match times with
          | [] => .ok f.emptyCopy
          | t :: ts => do
            let fields ← Fill.walkInWords o f.fields timeIndex policy step stop start ⟨0, t, ts⟩
              f.emptyCopy.fields
            .ok { f with fields }

namespace Fill

variable {range : TimeRange} {second width : Int}

theorem bucketCount_lt_size (hpos : 0 < width) (hle : width ≤ Digits.maxInt64)
    (range : TimeRange) :
    bucketCount (bucketStart range.start.second width) range.stop.second width < UInt64.size := by
  have hstart := (fits_iff.mp (fits_bucketStart hpos hle range.start)).1
  have hlast := range.stop.second_le
  rw [bucketCount]
  split
  next => decide
  next h =>
    have hself := Int.ediv_le_self width (show 0 ≤ range.stop.second -
      bucketStart range.start.second width by omega)
    have hsize : UInt64.size = 18446744073709551616 := rfl
    omega

/-! ## The computation in words -/

variable {step : Step}

theorem countInWords_eq (o : Overflow) (hfits : ¬ Exceeds range step.word.toInt) :
    countInWords o (Int64.ofInt (bucketStart range.start.second step.word.toInt))
        (Int64.ofInt range.stop.second) step =
      .ok (UInt64.ofNat (bucketCount (bucketStart range.start.second step.word.toInt)
        range.stop.second step.word.toInt)) := by
  have hpos := step.pos
  have hcount := bucketCount_lt_size hpos step.le range
  have hbucket := fits_bucketStart hpos step.le range.start
  have hbefore := ofInt_lt_ofInt_iff (fits_second range.stop) hbucket
  rw [countInWords, toInt_ofInt (fits_second _), toInt_ofInt hbucket]
  generalize hstart : bucketStart range.start.second step.word.toInt = start at hcount hbefore ⊢
  by_cases h : range.stop.second < start
  · rw [if_pos (hbefore.mpr h), bucketCount_of_lt h]
    rfl
  · rw [bucketCount, if_neg h] at hcount ⊢
    have hdistance : Fits (range.stop.second - start) := by
      rw [← hstart] at h ⊢
      exact (fits_distance_iff hpos (by omega)).mpr hfits
    rw [if_neg (mt hbefore.mp h), int64_of_fits hdistance]
    have hquotient : (range.stop.second - start).natAbs / step.word.toInt.natAbs =
        ((range.stop.second - start) / step.word.toInt).toNat := by
      obtain ⟨distance, hd⟩ := Int.eq_ofNat_of_zero_le (show 0 ≤ range.stop.second - start by
        omega)
      obtain ⟨n, hn⟩ := Int.eq_ofNat_of_zero_le (show 0 ≤ step.word.toInt by omega)
      rw [hd, hn]
      rfl
    show o.uint64 .add ((Int64.ofInt _).toInt.natAbs / _ + 1) = _
    rw [toInt_ofInt hdistance, hquotient, uint64_of_lt hcount]

/-- The walk takes as many turns as there are buckets, and every start is a word. -/
theorem walkInWords_eq (o : Overflow) (source : List Field) (timeIndex : Nat)
    (policy : FillPolicy) (stop : Instant) (hdvd : step.word.toInt ∣ second) (hfits : Fits second)
    (pending : Pending) (fields : List Field) :
    walkInWords o source timeIndex policy step (Int64.ofInt stop.second) (Int64.ofInt second)
        pending fields =
      walk source timeIndex policy step.word.toInt
        (bucketCount second stop.second step.word.toInt) second pending fields := by
  generalize hcount : bucketCount second stop.second step.word.toInt = count
  induction count generalizing second pending fields with
  | zero =>
    have hpassed : ¬ Int64.ofInt second ≤ Int64.ofInt stop.second := by
      rw [ofInt_le_ofInt_iff hfits (fits_second _)]
      intro h
      rw [bucketCount_succ step.pos h] at hcount
      cases hcount
    rw [walkInWords_of_not_le hpassed, walk]
  | succ count ih =>
    have hle : second ≤ stop.second := by
      by_contra h
      rw [bucketCount_of_lt (by omega)] at hcount
      cases hcount
    have hturn := (ofInt_le_ofInt_iff hfits (fits_second stop)).mpr hle
    have hsecond := toInt_ofInt hfits
    rw [bucketCount_succ step.pos hle, Nat.add_right_cancel_iff] at hcount
    rw [walk]
    cases hbucket : Instant.ofSecond? second with
    | none => rw [walkInWords_of_ofSecond? hturn (hsecond.symm ▸ hbucket), hsecond]
    | some bucket =>
      have hnext := fits_next step.pos step.le hdvd hbucket
      have hword : o.int64 .add ((Int64.ofInt second).toInt + step.word.toInt) =
          .ok (Int64.ofInt (second + step.word.toInt)) := by
        rw [hsecond, int64_of_fits hnext]
      rw [walkInWords_turn hturn (hsecond.symm ▸ hbucket) hword]
      dsimp only
      cases appendBucket source timeIndex policy bucket
          (Pending.skipTo bucket pending.row pending.time pending.later) fields with
      | error e => rfl
      | ok r =>
        dsimp only
        rw [checked, if_pos hnext]
        exact ih (Int.dvd_add hdvd (Int.dvd_refl _)) hnext r.2 r.1 hcount

/-- Too far a distance is taken, and then there is a count only if it wraps. -/
theorem Exceeds.countInWords_eq (h : Exceeds range step.word.toInt) (o : Overflow) :
    countInWords o (Int64.ofInt (bucketStart range.start.second step.word.toInt))
        (Int64.ofInt range.stop.second) step =
      (o.int64 .subtract
        (range.stop.second - bucketStart range.start.second step.word.toInt)).bind
        fun distance => o.uint64 .add (distance.toInt.natAbs / step.word.toInt.natAbs + 1) := by
  have hpos := step.pos
  have hbucket := fits_bucketStart hpos step.le range.start
  obtain ⟨hstart, -, hstop⟩ := h.starts step.le
  have hbefore := ofInt_lt_ofInt_iff (fits_second range.stop) hbucket
  rw [countInWords, toInt_ofInt (fits_second _), toInt_ofInt hbucket,
    if_neg (mt hbefore.mp (by omega))]
  rfl

theorem Exceeds.countInWords_faults (h : Exceeds range step.word.toInt) :
    countInWords .faults (Int64.ofInt (bucketStart range.start.second step.word.toInt))
        (Int64.ofInt range.stop.second) step = .error (.overflow .subtract) := by
  have hpos := step.pos
  obtain ⟨hstart, -, hstop⟩ := h.starts step.le
  have hfits : ¬ Fits (range.stop.second - bucketStart range.start.second step.word.toInt) := by
    rw [fits_distance_iff hpos (by omega)]
    exact not_not_intro h
  rw [h.countInWords_eq, Overflow.int64, if_pos ⟨rfl, hfits⟩]
  rfl

/-- Whatever a distance wraps to, it is at most one width. -/
theorem Exceeds.countInWords_wraps (h : Exceeds range step.word.toInt) :
    ∃ count : UInt64,
      countInWords .wraps (Int64.ofInt (bucketStart range.start.second step.word.toInt))
        (Int64.ofInt range.stop.second) step = .ok count ∧ count.toNat ≤ 2 := by
  obtain ⟨-, hwide, -⟩ := h.starts step.le
  rw [h.countInWords_eq, int64_wraps]
  show ∃ count, Overflow.wraps.uint64 .add _ = .ok count ∧ _
  rw [uint64_wraps]
  generalize Int64.ofInt (range.stop.second - bucketStart _ _) = distance
  refine ⟨_, rfl, ?_⟩
  have hge := distance.le_toInt
  have hlt := distance.toInt_lt
  have hone : distance.toInt.natAbs / step.word.toInt.natAbs < 2 :=
    Nat.div_lt_of_lt_mul (by omega)
  rw [UInt64.toNat_ofNat']
  exact Nat.le_trans (Nat.mod_le _ _) hone

/-- The buckets of a width close to the greatest word are two. -/
theorem Exceeds.bucketCount_le (h : Exceeds range width) (hle : width ≤ Digits.maxInt64) :
    bucketCount (bucketStart range.start.second width) range.stop.second width ≤ 2 := by
  obtain ⟨hstart, hwide, hstop⟩ := h.starts hle
  have hlast := range.stop.second_le
  rw [hstart, bucketCount, if_neg (by omega)]
  have hone : (range.stop.second - -width) / width < 2 :=
    Int.ediv_lt_of_lt_mul (by omega) (by omega)
  omega

end Fill

open Fill

namespace Frame

/-- What the walk is counted by matters only if there are too many buckets. -/
theorem fillInWords_of_count {o : Overflow} {range : TimeRange} {interval : Span} {step : Step}
    (hstep : Step.ofSpan? interval = some step) (hwidth : step.word.toInt = interval.seconds)
    {count : UInt64}
    (hcount : countInWords o (Int64.ofInt (bucketStart range.start.second interval.seconds))
      (Int64.ofInt range.stop.second) step = .ok count)
    (hsame : count.toNat = bucketCount (bucketStart range.start.second interval.seconds)
        range.stop.second interval.seconds ∨
      count.toNat ≤ maxBuckets ∧ bucketCount (bucketStart range.start.second interval.seconds)
        range.stop.second interval.seconds ≤ maxBuckets)
    (f : Frame) (timeIndex : Nat) (policy : FillPolicy) :
    f.fillInWords o timeIndex range interval policy =
      f.fillBuckets timeIndex policy interval.seconds
        (bucketStart range.start.second interval.seconds)
        (bucketCount (bucketStart range.start.second interval.seconds) range.stop.second
          interval.seconds) := by
  have hstart := fits_bucketStart step.pos step.le range.start
  have hdvd := dvd_bucketStart range.start.second step.word.toInt
  rw [fillInWords, hstep, fillBuckets]
  rw [← hwidth] at hcount hsame ⊢
  dsimp only
  rw [toInt_ofInt (fits_second _), ← bucketStart, int64_of_fits hstart]
  dsimp only [bind, Except.bind]
  rw [hcount]
  dsimp only
  by_cases hmany : maxBuckets < count.toNat
  · have hexact := hsame.resolve_right fun hfew => absurd hmany (by omega)
    rw [if_pos hmany, hexact, if_pos (by omega)]
  · rw [if_neg hmany, if_neg (by omega)]
    cases f.times timeIndex with
    | error e => rfl
    | ok times =>
      dsimp only
      split
      next => rfl
      next =>
        cases times with
        | nil => rfl
        | cons t ts =>
          dsimp only
          rw [walkInWords_eq o f.fields timeIndex policy range.stop hdvd hstart]
          cases walk f.fields timeIndex policy step.word.toInt _ _ _ _ <;> rfl

theorem fillInWords_faults {range : TimeRange} {interval : Span} {step : Step}
    (hstep : Step.ofSpan? interval = some step) (h : Exceeds range step.word.toInt)
    (f : Frame) (timeIndex : Nat) (policy : FillPolicy) :
    f.fillInWords .faults timeIndex range interval policy = .error (.overflow .subtract) := by
  have hstart := fits_bucketStart step.pos step.le range.start
  rw [fillInWords, hstep]
  dsimp only
  rw [toInt_ofInt (fits_second _), ← bucketStart, int64_of_fits hstart]
  dsimp only [bind, Except.bind]
  rw [h.countInWords_faults]

/-- Filling takes words of 64 bits, for every range and every width that is accepted.  Each number
it takes is a word but the distance of the ends, which is none if the range starts before 1970 and
the width is close to the greatest word.  Then filling has a fault, and otherwise it gives what
exact numbers give.  This is what checked words make of it, and words that wrap give in any case
what exact numbers do. -/
theorem fill_in_words (range : TimeRange) (interval : Span) (hpos : 1 ≤ interval.seconds)
    (hle : (interval.seconds : Int) ≤ Digits.maxInt64) :
    Fits (bucketStart range.start.second interval.seconds) ∧
      (bucketStart range.start.second interval.seconds ≤ range.stop.second →
        (Fits (range.stop.second - bucketStart range.start.second interval.seconds) ↔
          ¬ Exceeds range interval.seconds)) ∧
      bucketCount (bucketStart range.start.second interval.seconds) range.stop.second
        interval.seconds < UInt64.size ∧
      (∀ (n : Nat) (bucket : Instant),
        Instant.ofSecond? (bucketStart range.start.second interval.seconds +
          n * interval.seconds) = some bucket →
        Fits (bucketStart range.start.second interval.seconds + n * interval.seconds +
          interval.seconds)) ∧
      ∀ (f : Frame) (timeIndex : Nat) (policy : FillPolicy),
        let exact := f.fillBuckets timeIndex policy interval.seconds
          (bucketStart range.start.second interval.seconds)
          (bucketCount (bucketStart range.start.second interval.seconds) range.stop.second
            interval.seconds)
        (f.fill timeIndex range interval policy =
          if Exceeds range interval.seconds then .error (.overflow .subtract) else exact) ∧
        f.fillInWords .faults timeIndex range interval policy =
          f.fill timeIndex range interval policy ∧
        f.fillInWords .wraps timeIndex range interval policy = exact := by
  have hpos' : 0 < (interval.seconds : Int) := by omega
  have hwidth : ¬ interval.Unfillable := not_or.mpr ⟨by omega, Int.not_lt.mpr hle⟩
  refine ⟨fits_bucketStart hpos' hle range.start, fits_distance_iff hpos',
    bucketCount_lt_size hpos' hle range, fun n bucket hbucket => ?_, fun f timeIndex policy => ?_⟩
  · exact fits_next hpos' hle
      (Int.dvd_add (Int.dvd_mul_left _ _) (Int.dvd_mul_left _ _)) hbucket
  · obtain ⟨step, hstep, hword⟩ := Step.ofSpan?_isSome hpos hle
    rw [fill_eq, if_neg hwidth]
    refine ⟨rfl, ?_⟩
    by_cases hexceeds : Exceeds range interval.seconds
    · rw [← hword] at hexceeds
      obtain ⟨count, hcount, hfew⟩ := hexceeds.countInWords_wraps
      have hexact := hexceeds.bucketCount_le step.le
      have hmax : 2 ≤ maxBuckets := by decide
      rw [hword] at hcount hexact
      rw [fillInWords_faults hstep hexceeds, if_pos (hword ▸ hexceeds)]
      exact ⟨rfl, fillInWords_of_count hstep hword hcount (.inr ⟨by omega, by omega⟩) f timeIndex
        policy⟩
    · have hcount (o : Overflow) :=
        countInWords_eq o (show ¬ Exceeds range step.word.toInt from hword ▸ hexceeds)
      rw [hword] at hcount
      have hsame := UInt64.toNat_ofNat_of_lt (bucketCount_lt_size hpos' hle range)
      rw [if_neg hexceeds]
      exact ⟨fillInWords_of_count hstep hword (hcount .faults) (.inl hsame) f timeIndex policy,
        fillInWords_of_count hstep hword (hcount .wraps) (.inl hsame) f timeIndex policy⟩

/-- The readings are put on minutes, and all numbers are words. -/
theorem fill_in_words_readings :
    (1 ≤ (Span.ofSeconds 60).seconds ∧ ((Span.ofSeconds 60).seconds : Int) ≤ Digits.maxInt64) ∧
      readings.fill 1 readingRange (Span.ofSeconds 60) .previous =
        readings.fillBuckets 1 .previous 60 (-180) 6 ∧
      readings.fillInWords .faults 1 readingRange (Span.ofSeconds 60) .previous =
        readings.fillBuckets 1 .previous 60 (-180) 6 := by
  have hpos : 1 ≤ (Span.ofSeconds 60).seconds := by decide
  have hle : ((Span.ofSeconds 60).seconds : Int) ≤ Digits.maxInt64 := by decide
  obtain ⟨-, -, -, -, hfill⟩ := fill_in_words readingRange (Span.ofSeconds 60) hpos hle
  obtain ⟨hexact, hwords, -⟩ := hfill readings 1 .previous
  have hsix := hexact.trans (if_neg (by decide))
  exact ⟨⟨hpos, hle⟩, hsix, hwords.trans hsix⟩

/-- The second before 1970 to the second after its start. -/
def aroundEpoch : TimeRange := ⟨.near (-1) 0, .near 1 0⟩

/-- One reading at the start of 1970. -/
def oneReading : Frame :=
  ⟨"response", [.ofColumn "time" (Pivot.timeColumn [.near 0 0]),
    .ofColumn "value" ⟨.integer, #[some 1]⟩], none⟩

/-- The first bucket of the greatest width is a second too far from the end of the range. -/
theorem fill_exceeds_words :
    aroundEpoch.stop.second - bucketStart aroundEpoch.start.second greatestWidth.seconds =
        9223372036854775808 ∧
      ¬ Fits 9223372036854775808 ∧
      oneReading.fill 0 aroundEpoch greatestWidth .null = .error (.overflow .subtract) ∧
      oneReading.fillBuckets 0 .null greatestWidth.seconds
          (bucketStart aroundEpoch.start.second greatestWidth.seconds) 2 =
        .error (.timeOutOfRange (-9223372036854775807)) :=
  ⟨by decide, by decide, rfl, rfl⟩

end Frame

end SeriesQuery
