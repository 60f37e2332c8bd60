import SeriesQuery.Proofs.Frame.GapFilled
import SeriesQuery.Proofs.Frame.Grid
import SeriesQuery.Proofs.Frame.KeptRows
import SeriesQuery.Proofs.Frame.Shape

/-!
# The rows of the buckets, one by one

What the walk over the buckets gives, row by row (`Frame.fill_walks`).  There is a row for each
turn of a loop that goes from the start of the first bucket in steps of the width, as long as it
has not passed the end of the range, and the number of rows is known before (`turns_eq`).  The
row of a bucket is a copy of the first row of the source that has its time.  A bucket without
such a row takes its cells from the policy, which may look at the row before
(`filledAt_bucketCells`).

Rows of the source that have no bucket's time are in none of the rows, whether they lie between
two buckets, within the first second of one, or outside the range.
-/

namespace SeriesQuery

namespace Fill

/-! ## The number of the rows -/

/-- How often a loop turns that goes on from a second by a width as long as it has not passed
`stop`. -/
def turns (stop width second : Int) : Nat :=
  if 0 < width ∧ second ≤ stop then turns stop width (second + width) + 1 else 0
termination_by (stop + 1 - second).toNat
decreasing_by omega

theorem bucketCount_of_lt {start stop : Int} (h : stop < start) (width : Int) :
    bucketCount start stop width = 0 := if_pos h

/-- A bucket that starts in the range is one more than those behind it. -/
theorem bucketCount_succ {start stop width : Int} (hwidth : 0 < width) (h : start ≤ stop) :
    bucketCount start stop width = bucketCount (start + width) stop width + 1 := by
  rw [bucketCount, if_neg (Int.not_lt.mpr h), bucketCount]
  by_cases hlast : stop < start + width
  · have hzero : (stop - start) / width = 0 := Int.ediv_eq_zero_of_lt (by omega) (by omega)
    rw [if_pos hlast, hzero]
    rfl
  · have hrest : (stop - start) / width = (stop - (start + width)) / width + 1 := by
      rw [← Int.add_mul_ediv_right _ 1 (by omega), Int.one_mul]
      congr 1
      omega
    have hnonneg : 0 ≤ (stop - (start + width)) / width := Int.ediv_nonneg (by omega) (by omega)
    rw [if_neg hlast, hrest]
    omega

/-- The buckets are counted as often as the loop over them turns. -/
theorem turns_eq {width : Int} (hwidth : 0 < width) (stop second : Int) :
    turns stop width second = bucketCount second stop width := by
  fun_induction turns stop width second with
  | case1 second h ih => rw [ih, bucketCount_succ hwidth h.2]
  | case2 second h => exact (bucketCount_of_lt (by omega) width).symm

/-! ## The cells of the rows -/

variable {timeIndex index i : Nat} {policy : FillPolicy} {times buckets : List Instant}
  {bucket : Instant} {g : Field}

/-- The row of a bucket that rows have the time of is a copy of the first of them. -/
theorem getElem?_bucketCells_of_first {row : Nat} (hbucket : buckets[i]? = some bucket)
    (hrow : times[row]? = some bucket) (hfirst : ∀ before < row, times[before]? ≠ some bucket)
    (haligned : g.column.length = times.length) (previous : g.column.kind.Cell) :
    (bucketCells timeIndex policy times index g previous buckets)[i]? = g.column.cells[row]? := by
  have hlt : row < g.column.length := by
    rw [haligned]
    exact (List.getElem?_eq_some_iff.mp hrow).1
  rw [getElem?_bucketCells_of_row hbucket (firstRow?_eq_some_iff.mpr ⟨hrow, hfirst⟩),
    Column.cellAt_eq hlt]

/-- A bucket that no row has the time of takes what the policy puts there. -/
theorem filledAt_bucketCells (hindex : index ≠ timeIndex)
    (hbucket : buckets[i]? = some bucket) (hnot : bucket ∉ times) :
    SeriesCells.FilledAt policy (bucketCells timeIndex policy times index g none buckets) i := by
  rw [bucketCells_of_ne hindex]
  refine SeriesCells.filledAt_fillSlots policy ?_
  rw [List.getElem?_map, hbucket, Option.map_some, firstRow?_eq_none_iff.mpr hnot]
  rfl

/-- What the cells of a field become on buckets.  `c` is the column of the field, whose rows have
the given times, and `index` is its place. -/
structure Walked (timeIndex : Nat) (policy : FillPolicy) (times buckets : List Instant)
    (index : Nat) (c : Column) (cells : List c.kind.Cell) : Prop where
  /-- There is a cell for each bucket. -/
  length_eq : cells.length = buckets.length
  /-- A bucket that rows have the time of has the cell of the first of them. -/
  copied : ∀ (i row : Nat) (bucket : Instant), buckets[i]? = some bucket →
    times[row]? = some bucket → (∀ before < row, times[before]? ≠ some bucket) →
      cells[i]? = c.cells[row]?
  /-- In another bucket stands what the policy puts there.  The field of times is not filled. -/
  filled : index ≠ timeIndex → ∀ (i : Nat) (bucket : Instant), buckets[i]? = some bucket →
    bucket ∉ times → SeriesCells.FilledAt policy cells i

theorem walked_bucketCells (haligned : g.column.length = times.length) :
    Walked timeIndex policy times buckets index g.column
      (bucketCells timeIndex policy times index g none buckets) where
  length_eq := Frame.length_bucketCells timeIndex policy times index g none buckets
  copied _ _ _ hbucket hrow hfirst :=
    getElem?_bucketCells_of_first hbucket hrow hfirst haligned none
  filled hindex _ _ hbucket hnot := filledAt_bucketCells hindex hbucket hnot

/-- Buckets start at instants if the first of them does, since the others start in the range. -/
theorem Accepts.of_first {range : TimeRange} {width : Int} (hpos : 0 < width)
    (hle : width ≤ Digits.maxInt64)
    (hcount : bucketCount (bucketStart range.start.second width) range.stop.second width ≤
      maxBuckets)
    (hfirst : -8334601228800 ≤ bucketStart range.start.second width) : Accepts range width where
  width_pos := hpos
  width_le := hle
  count_le := hcount
  starts n hn := by
    have hnonneg : 0 ≤ (n : Int) * width := Int.mul_nonneg (by omega) (by omega)
    have hlast := range.stop.second_le
    exact ⟨⟨bucketStart range.start.second width + n * width, 0, by omega, by omega, by decide,
      by omega⟩, Instant.ofSecond?_eq_some_iff.mpr ⟨rfl, rfl⟩⟩

end Fill

open Fill

namespace Frame

/-- The walk over the buckets of a range.  It does not fail on rows in the order of their times
if the buckets are accepted, and gives a row for each of them, as many as were counted before.
The times of the rows are the starts of the buckets, and all other cells are copies of the first
row of that time or what the policy gives.  Nothing else in the frame changes. -/
theorem fill_walks (f : Frame) (timeIndex : Nat) (times : List Instant) (range : TimeRange)
    (interval : Span) (policy : FillPolicy)
    (htimes : (f.fields[timeIndex]?).map Field.column = some (Pivot.timeColumn times))
    (haligned : ∀ g ∈ f.fields, g.column.length = times.length) (hrows : times ≠ [])
    (hasc : times.Pairwise (· ≤ ·)) (haccepts : Accepts range interval.seconds) :
    ∃ (g : Frame) (buckets : List Instant), f.fill timeIndex range interval policy = .ok g ∧
      IsGrid range interval.seconds buckets ∧
      buckets.length = bucketCount (bucketStart range.start.second interval.seconds)
        range.stop.second interval.seconds ∧
      buckets.length = turns range.stop.second interval.seconds
        (bucketStart range.start.second interval.seconds) ∧
      g.name = f.name ∧ g.note = f.note ∧ g.fields.length = f.fields.length ∧
      (g.fields[timeIndex]?).map Field.column = some (Pivot.timeColumn buckets) ∧
      ∀ (index : Nat) (s : Field), f.fields[index]? = some s →
        ∃ cells : List s.column.kind.Cell,
          g.fields[index]? = some { s with column := ⟨s.column.kind, cells.toArray⟩ } ∧
            Walked timeIndex policy times buckets index s.column cells := by
  have htimes' := times_eq_ok_iff.mpr htimes
  obtain ⟨buckets, hbuckets, hgrid⟩ := haccepts.exists_grid
  have hrowsOf : HasRows f.fields times buckets := by
    intro bucket _ row hrow g hg
    rw [haligned g hg]
    exact (List.getElem?_eq_some_iff.mp (firstRow?_eq_some_iff.mp hrow).1).1
  have hcount := (buckets?_eq_some_iff.mp hbuckets).1
  refine ⟨filled f timeIndex policy times buckets, buckets, ?_, hgrid, hcount, ?_, rfl, rfl, ?_,
    timeColumn_filled htimes', fun index s hs => ?_⟩
  · exact (fill_eq_ok_iff htimes' hasc hrows range interval policy _).mpr
      ⟨⟨haccepts.width_pos, haccepts.width_le⟩, haccepts.count_le, buckets, hbuckets, hrowsOf, rfl⟩
  · rw [hcount, turns_eq haccepts.width_pos]
  · rw [filled, columns, List.length_mapIdx]
  · refine ⟨bucketCells timeIndex policy times index s none buckets, ?_,
      walked_bucketCells (haligned s (List.mem_of_getElem? hs))⟩
    rw [filled, columns, List.getElem?_mapIdx, hs]
    rfl

/-- Two readings at the minute before 1970, one a moment later, and one each at the first minute
and before the range. -/
def readingTimes : List Instant :=
  [.near (-240) 0, .near (-60) 0, .near (-60) 0, .near (-60) 1, .near 60 0]

/-- The readings, with their times in the second field. -/
def readings : Frame :=
  ⟨"readings", [.ofColumn "value" ⟨.integer, #[some 1, some 2, some 3, some 4, some 5]⟩,
    .ofColumn "time" (Pivot.timeColumn readingTimes)], none⟩

/-- A range that starts and ends within a minute. -/
def readingRange : TimeRange := ⟨.near (-121) 9, .near 130 0⟩

/-- The readings are put on six minutes, from the third before 1970 on.  No reading has the time of
the first of them, so it takes the constant without its fraction. -/
theorem fill_walks_readings : ∃ (g : Frame) (buckets : List Instant),
    readings.fill 1 readingRange (Span.ofSeconds 60) (.constant .withFraction) = .ok g ∧
      buckets.length = 6 ∧ (g.fields[1]?).map Field.column = some (Pivot.timeColumn buckets) ∧
      ∃ cells : List (Option Int64),
        g.fields[0]? = some (.ofColumn "value" ⟨.integer, cells.toArray⟩) ∧
          cells[0]? = some (some (-2 : Int64)) ∧
          Walked 1 (.constant .withFraction) readingTimes buckets 0
            ⟨.integer, #[some 1, some 2, some 3, some 4, some 5]⟩ cells := by
  obtain ⟨g, buckets, hg, hgrid, hcount, -, -, -, -, htime, hfields⟩ :=
    fill_walks readings 1 readingTimes readingRange (Span.ofSeconds 60) (.constant .withFraction)
      rfl (by decide) (by decide) (by decide)
      (.of_first (by decide) (by decide) (by decide) (by decide))
  obtain ⟨cells, hcells, hwalked⟩ := hfields 0 _ rfl
  refine ⟨g, buckets, hg, hcount, htime, cells, hcells, ?_, hwalked⟩
  have hlt : 0 < buckets.length := (hgrid.lt_length_iff 0).mpr (by decide)
  have hfirst := List.getElem?_eq_getElem hlt
  have hearly : buckets[0] ∉ readingTimes := fun hmem => by
    have hlater : ∀ time ∈ readingTimes, time.second ≠ -180 := by decide
    exact hlater _ hmem (hgrid.start 0 _ hfirst).1
  obtain ⟨cell, hcell, hconstant⟩ :=
    (hwalked.filled (by decide) 0 _ hfirst hearly).constant _ rfl
  have htruncated : Kind.integer.constantCell .withFraction = some (-2) := by decide +kernel
  exact hcell.trans (congrArg some ((Kind.constantCell_eq_iff.mpr hconstant).symm.trans htruncated))

example : (readings.fill 1 readingRange (Span.ofSeconds 60) .previous).toOption.map (fun g =>
      g.fields.map Field.column) =
    some [⟨.integer, #[none, none, some 2, some 2, some 5, some 5]⟩,
      Pivot.timeColumn [.near (-180) 0, .near (-120) 0, .near (-60) 0, .near 0 0, .near 60 0,
        .near 120 0]] := by decide +kernel

end Frame

end SeriesQuery
