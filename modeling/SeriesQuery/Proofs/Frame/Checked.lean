import SeriesQuery.Frame.Assemble
import SeriesQuery.Proofs.Time.Order

/-!
# The numbers of filling

Filling takes the start of its first bucket, the distance from there to the end of the range, and
the next start behind each bucket.  All of these are words but one.  A range from before 1970 on
has its first bucket up to a whole width before 1970, so for widths close to the greatest word the
distance to the end of the range is none (`Fill.Exceeds`).  This is the only fault of filling, and
it comes before anything is read from the frame (`Frame.fill_eq`).

The next start is a word because a bucket that starts at an instant after 1970 is no wider than
its start is late (`fits_next`).
-/

namespace SeriesQuery

namespace Fill

open Word (Fits fits_iff)

variable {range : TimeRange} {second width : Int}

/-- The number of buckets that start from `start` to `stop`. -/
def bucketCount (start stop width : Int) : Nat :=
  if stop < start then 0 else ((stop - start) / width).toNat + 1

/-- The end of a range is too far from the start of its first bucket. -/
def Exceeds (range : TimeRange) (width : Int) : Prop :=
  range.start.second < 0 ∧ Digits.maxInt64 < range.stop.second + width

instance (range : TimeRange) (width : Int) : Decidable (Exceeds range width) :=
  inferInstanceAs (Decidable (_ ∧ _))

theorem maxInt64_eq : Digits.maxInt64 = 9223372036854775807 := rfl

/-- The greatest width that buckets can have. -/
def greatestWidth : Span :=
  { Span.zero with seconds := 9223372036854775807, seconds_lt := by decide }

/-! ## The first bucket -/

theorem bucketStart_le (hpos : 0 < width) (second : Int) : bucketStart second width ≤ second :=
  Int.ediv_mul_le second (by omega)

theorem lt_bucketStart_add (hpos : 0 < width) (second : Int) :
    second < bucketStart second width + width := by
  have h := Int.lt_ediv_add_one_mul_self second hpos
  rwa [Int.add_mul, Int.one_mul] at h

theorem bucketStart_nonneg (hpos : 0 < width) (h : 0 ≤ second) : 0 ≤ bucketStart second width :=
  Int.mul_nonneg (Int.ediv_nonneg h (by omega)) (by omega)

theorem dvd_bucketStart (second width : Int) : width ∣ bucketStart second width :=
  Int.dvd_mul_left _ _

/-- A second less than a width before 1970 is in the last bucket before it. -/
theorem bucketStart_eq_neg (hneg : second < 0) (hle : -second ≤ width) :
    bucketStart second width = -width := by
  rw [bucketStart, Int.ediv_eq_neg_one_of_neg_of_le hneg hle, Int.neg_one_mul]

/-- The first bucket starts from 1970 on, a width before, or not long before the second. -/
theorem bucketStart_cases (hpos : 0 < width) (second : Int) :
    (0 ≤ second ∧ 0 ≤ bucketStart second width) ∨
      (second < 0 ∧ -second ≤ width ∧ bucketStart second width = -width) ∨
        second < 0 ∧ width < -second ∧ 2 * second < bucketStart second width := by
  by_cases hneg : second < 0
  · by_cases hle : -second ≤ width
    · exact .inr (.inl ⟨hneg, hle, bucketStart_eq_neg hneg hle⟩)
    · have := lt_bucketStart_add hpos second
      exact .inr (.inr ⟨hneg, by omega, by omega⟩)
  · exact .inl ⟨by omega, bucketStart_nonneg hpos (by omega)⟩

theorem fits_bucketStart (hpos : 0 < width) (hle : width ≤ Digits.maxInt64) (t : Instant) :
    Fits (bucketStart t.second width) := by
  have hstart := bucketStart_le hpos t.second
  have hfirst := t.second_ge
  have hlast := t.second_le
  rw [fits_iff]
  rw [maxInt64_eq] at hle
  rcases bucketStart_cases hpos t.second with h | h | h <;> omega

/-! ## The distance to the end -/

/-- The distance to the end of the range is a word for all widths but those close to the greatest
one. -/
theorem fits_distance_iff (hpos : 0 < width)
    (hstart : bucketStart range.start.second width ≤ range.stop.second) :
    Fits (range.stop.second - bucketStart range.start.second width) ↔ ¬ Exceeds range width := by
  have hfirst := range.start.second_ge
  have hlast := range.stop.second_le
  rw [fits_iff, Exceeds, maxInt64_eq]
  rcases bucketStart_cases hpos range.start.second with h | h | h <;> omega

/-- If it is none, the first bucket starts at no instant and there are two of them. -/
theorem Exceeds.starts (h : Exceeds range width) (hle : width ≤ Digits.maxInt64) :
    bucketStart range.start.second width = -width ∧ 9223363826587899008 < width ∧
      0 < range.stop.second := by
  have hfirst := range.start.second_ge
  have hlast := range.stop.second_le
  obtain ⟨hneg, hfar⟩ := h
  rw [maxInt64_eq] at hle hfar
  exact ⟨bucketStart_eq_neg hneg (by omega), by omega, by omega⟩

theorem countBuckets_eq (hpos : 0 < width) (hle : width ≤ Digits.maxInt64) :
    countBuckets (bucketStart range.start.second width) range.stop.second width =
      if Exceeds range width then .error (.overflow .subtract)
      else .ok (bucketCount (bucketStart range.start.second width) range.stop.second width) := by
  rw [countBuckets, bucketCount]
  by_cases hbefore : range.stop.second < bucketStart range.start.second width
  · have hfits : ¬ Exceeds range width := fun h => by
      have := h.starts hle
      omega
    rw [if_pos hbefore, if_pos hbefore, if_neg hfits]
  · have hfits := fits_distance_iff hpos (Int.not_lt.mp hbefore)
    rw [if_neg hbefore, if_neg hbefore, checked]
    by_cases hexceeds : Exceeds range width
    · rw [if_neg (mt hfits.mp (not_not_intro hexceeds)), if_pos hexceeds]
    · rw [if_pos (hfits.mpr hexceeds), if_neg hexceeds]

/-! ## The next bucket -/

/-- Behind a bucket that starts at an instant the next start is a word.  A start after 1970 is a
width or more after it. -/
theorem fits_next (hpos : 0 < width) (hle : width ≤ Digits.maxInt64) (hdvd : width ∣ second)
    {bucket : Instant} (hbucket : Instant.ofSecond? second = some bucket) :
    Fits (second + width) := by
  obtain ⟨rfl, -⟩ := Instant.ofSecond?_eq_some_iff.mp hbucket
  have hfirst := bucket.second_ge
  have hlast := bucket.second_le
  rw [fits_iff]
  rw [maxInt64_eq] at hle
  by_cases hafter : 0 < bucket.second
  · have := Int.le_of_dvd hafter hdvd
    omega
  · omega

end Fill

/-! ## Filling -/

/-- A width that buckets cannot have: one that is no positive number of 63 bits. -/
def Span.Unfillable (interval : Span) : Prop :=
  (interval.seconds : Int) ≤ 0 ∨ Digits.maxInt64 < interval.seconds

instance (interval : Span) : Decidable interval.Unfillable := inferInstanceAs (Decidable (_ ∨ _))

/-- Filling with exact numbers.  They lead to a fault only by their distance. -/
theorem Frame.fill_eq (f : Frame) (timeIndex : Nat) (range : TimeRange) (interval : Span)
    (policy : FillPolicy) :
    f.fill timeIndex range interval policy =
      if interval.Unfillable then .error .invalidInterval
      else if Fill.Exceeds range interval.seconds then .error (.overflow .subtract)
      else f.fillBuckets timeIndex policy interval.seconds
        (Fill.bucketStart range.start.second interval.seconds)
        (Fill.bucketCount (Fill.bucketStart range.start.second interval.seconds)
          range.stop.second interval.seconds) := by
  rw [fill]
  by_cases hwidth : interval.Unfillable
  · rw [if_pos hwidth]
    exact if_pos hwidth
  · obtain ⟨hpos, hle⟩ := not_or.mp hwidth
    have hstart := Fill.fits_bucketStart (Int.not_le.mp hpos) (Int.not_lt.mp hle) range.start
    rw [if_neg hwidth, Fill.checked, if_pos hstart]
    dsimp only
    rw [Fill.countBuckets_eq (Int.not_le.mp hpos) (Int.not_lt.mp hle)]
    refine (if_neg hwidth).trans ?_
    by_cases hexceeds : Fill.Exceeds range interval.seconds
    · rw [if_pos hexceeds, if_pos hexceeds]
    · rw [if_neg hexceeds, if_neg hexceeds]

end SeriesQuery
