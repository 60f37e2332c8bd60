import SeriesQuery.Proofs.Frame.Shape

/-!
# Rows out of order

Rows are compared each with the one before, once when a long series is spread and once when gaps
are filled.  The two checks find exactly the tables in which some row, anywhere behind another, is
earlier (`Inverted`): spreading does so for every long series, and filling for a wide series whose
buckets are fit to be walked over (`Table.assemble_out_of_order`).  Filling does not come to the
rows if the distance to the end of the range is no word.  Then there is a fault, whatever their
order (`Table.assemble_lateReading_overflow`).

No long series is refused twice.  When it is spread its times ascend, so the filling that may
follow finds them in order (`fillGaps_ne_notSortedByTime`).
-/

namespace SeriesQuery

/-- Some time is earlier than one anywhere before it. -/
def Inverted (times : List Instant) : Prop :=
  ∃ (i j : Nat) (s t : Instant), i < j ∧ times[i]? = some s ∧ times[j]? = some t ∧ t < s

/-- The buckets of a range have a width of 63 bits that is not zero, and are not too many. -/
structure GapFill.Walkable (gaps : GapFill) : Prop where
  width_pos : 1 ≤ gaps.interval.seconds
  width_le : (gaps.interval.seconds : Int) ≤ Digits.maxInt64
  count_le : Fill.bucketCount (Fill.bucketStart gaps.range.start.second gaps.interval.seconds)
    gaps.range.stop.second gaps.interval.seconds ≤ maxBuckets

theorem GapFill.Walkable.not_unfillable {gaps : GapFill} (h : gaps.Walkable) :
    ¬ gaps.interval.Unfillable := by
  have hpos := h.width_pos
  have hle := h.width_le
  rw [Span.Unfillable]
  omega

/-- Comparing neighbours finds every inversion. -/
theorem inverted_iff {times : List Instant} : Inverted times ↔ Frame.timesAscend times = false := by
  rw [← Bool.not_eq_true, Frame.timesAscend_iff, List.pairwise_iff_getElem]
  constructor
  · rintro ⟨i, j, s, t, hij, hi, hj, hts⟩ hasc
    obtain ⟨hilt, rfl⟩ := List.getElem?_eq_some_iff.mp hi
    obtain ⟨hjlt, rfl⟩ := List.getElem?_eq_some_iff.mp hj
    exact hasc i j hilt hjlt hij hts
  · intro hasc
    simp only [not_forall] at hasc
    obtain ⟨i, j, hi, hj, hij, hnot⟩ := hasc
    exact ⟨i, j, times[i], times[j], hij, List.getElem?_eq_getElem hi, List.getElem?_eq_getElem hj,
      not_le.mp hnot⟩

theorem Fill.grid_ne_notSortedByTime (range : TimeRange) (interval : Span) :
    grid range interval ≠ .error .notSortedByTime := by
  rw [grid]
  split
  next => rintro ⟨⟩
  next =>
    split
    next => rintro ⟨⟩
    next =>
      split
      next => rintro ⟨⟩
      next =>
        rcases starts_cases interval.seconds _ _ with ⟨buckets, h⟩ | ⟨missed, h⟩
        · rw [h]
          rintro ⟨⟩
        · rw [h]
          rintro ⟨⟩

namespace Frame

variable {f : Frame} {timeIndex : Nat} {times : List Instant} {gaps : GapFill}

/-! ## Filling -/

/-- Times in order are never found out of order. -/
theorem fill_ne_notSortedByTime (htimes : f.times timeIndex = .ok times)
    (hasc : times.Pairwise (· ≤ ·)) (haligned : ∀ g ∈ f.fields, g.column.length = times.length)
    (range : TimeRange) (interval : Span) (policy : FillPolicy) :
    f.fill timeIndex range interval policy ≠ .error .notSortedByTime := by
  by_cases hne : times = []
  · subst hne
    rw [fill_eq]
    split
    next => rintro ⟨⟩
    next =>
      split
      next => rintro ⟨⟩
      next =>
        rw [fillBuckets, htimes]
        split <;> rintro ⟨⟩
  · rw [fill_eq_grid htimes hasc hne haligned]
    intro h
    cases hgrid : Fill.grid range interval with
    | ok buckets =>
      rw [hgrid] at h
      cases h
    | error e =>
      rw [hgrid] at h
      cases h
      exact Fill.grid_ne_notSortedByTime range interval hgrid

/-- The width, the distance and the number of the buckets are looked at before the times. -/
theorem fill_eq_notSortedByTime_iff (htimes : f.times timeIndex = .ok times)
    (haligned : ∀ g ∈ f.fields, g.column.length = times.length) (hwalkable : gaps.Walkable)
    (hfits : ¬ Fill.Exceeds gaps.range gaps.interval.seconds) (policy : FillPolicy) :
    f.fill timeIndex gaps.range gaps.interval policy = .error .notSortedByTime ↔
      Inverted times := by
  rw [inverted_iff]
  constructor
  · intro h
    refine Bool.eq_false_iff.mpr fun hasc => ?_
    exact fill_ne_notSortedByTime htimes (timesAscend_iff.mp hasc) haligned _ _ policy h
  · intro hinverted
    rw [fill_eq, if_neg hwalkable.not_unfillable, if_neg hfits, fillBuckets,
      if_neg (Nat.not_lt.mpr hwalkable.count_le), htimes]
    simp only [hinverted, Bool.not_false, if_true]

/-! ## Spreading -/

open Pivot

/-- A frame whose first field holds times in order is never found out of order. -/
theorem fillGaps_ne_notSortedByTime {wide : Frame} {name : String} {fields : List Field}
    (hfields : wide.fields = .ofColumn name (timeColumn times) :: fields)
    (hasc : times.Pairwise (· ≤ ·))
    (haligned : ∀ g ∈ wide.fields, g.column.length = times.length) (gaps : GapFill) :
    wide.fillGaps gaps ≠ .error .notSortedByTime := by
  have htimes : wide.times wide.schema.timeIndex = .ok times := by
    rw [times_eq_ok_iff, timeIndex_of_cons hfields rfl, hfields]
    rfl
  rw [fillGaps]
  split
  next => rintro ⟨⟩
  next policy _ => exact fill_ne_notSortedByTime htimes hasc haligned _ _ policy

/-- A long frame is refused for the order of its rows when it is spread, and not afterwards. -/
theorem spread_eq_notSortedByTime_iff (hlong : f.schema.shape = .long)
    (htimes : f.times f.schema.timeIndex = .ok times)
    (haligned : ∀ g ∈ f.fields, g.column.length = times.length) (policy : FillPolicy) :
    (f.pivot f.schema policy).bind (·.fillGaps gaps) = .error .notSortedByTime ↔
      Inverted times := by
  rw [inverted_iff]
  cases hasc : timesAscend times with
  | false =>
    have hpivot : f.pivot f.schema policy = .error .notSortedByTime := by
      simp [pivot, hlong, htimes, hasc]
    rw [hpivot]
    exact ⟨fun _ => rfl, fun _ => rfl⟩
  | true =>
    have hordered : f.Ordered times :=
      ⟨hlong, times_eq_ok_iff.mp htimes, haligned, timesAscend_iff.mp hasc⟩
    refine ⟨fun h => ?_, by rintro ⟨⟩⟩
    rcases pivot_cases hordered policy with
      ⟨wide, name, m, hpivot, hm, hwide⟩ | ⟨_, _, _, _, _, _, hpivot⟩
    · rw [hpivot] at h
      have hspread := (hasTimes_of_holds hm hwide).aligned
      exact absurd h (fillGaps_ne_notSortedByTime hwide
        ((distinct_pairwise hordered.ascend).imp le_of_lt) hspread gaps)
    · rw [hpivot] at h
      cases h

end Frame

/-! ## Assembling -/

namespace Table

/-- The first column of times, if it has no nulls, gives the times of a series. -/
theorem times_toFrame {t : Table} {times : List Instant} (name : String)
    (hshape : (t.toFrame name).schema.shape ≠ .none)
    (htime : (t.columns.find? fun c => c.column.kind == .timestamp).map TableColumn.column =
      some (Pivot.timeColumn times)) :
    (t.toFrame name).times (t.toFrame name).schema.timeIndex = .ok times := by
  rw [Frame.times_eq_ok_iff, ← Frame.find?_time hshape, toFrame, List.find?_map, Option.map_map]
  exact htime

/-- The columns of a table whose first column of times has no nulls are as long as there are times.
-/
theorem length_of_times_toFrame {t : Table} {length : Nat} {times : List Instant} {name : String}
    (haligned : ∀ c ∈ t.columns, c.column.length = length)
    (hshape : (t.toFrame name).schema.shape ≠ .none)
    (htime : (t.columns.find? fun c => c.column.kind == .timestamp).map TableColumn.column =
      some (Pivot.timeColumn times)) :
    ∀ g ∈ (t.toFrame name).fields, g.column.length = times.length := by
  have htimes := times_toFrame name hshape htime
  have hhas := hasTimes_toFrame name haligned hshape
  rcases Frame.times_cases hhas with ⟨times', htimes', hlength⟩ | ⟨row, hnull⟩
  · cases htimes.symm.trans htimes'
    rw [hlength]
    exact hhas.aligned
  · cases htimes.symm.trans hnull

/-- Rows out of order are found exactly, but for a fault.  For the rows of a result that are read
as time series, and whose first column of times has no nulls, the order is at fault exactly if some
row is earlier than one anywhere before it: always if the series is long, and if it is wide whenever
gaps are filled on buckets that can be walked over and whose distance to the end of the range is a
word.  If that is none there is a fault, whatever the order.  Nothing is at fault if a table was
asked for, if the rows form no series, or if a wide series is left as it is. -/
theorem assemble_out_of_order (result : ResultSet) (t : Table) (h : ofResult result = .ok t)
    (hrows : t.rowCount ≠ 0) (gaps : GapFill) :
    (∀ times, (t.columns.find? fun c => c.column.kind == .timestamp).map TableColumn.column =
        some (Pivot.timeColumn times) →
      ((t.toFrame Frame.responseName).schema.shape = .long →
        (t.assemble .timeseries gaps = .error .notSortedByTime ↔ Inverted times)) ∧
      ((t.toFrame Frame.responseName).schema.shape = .wide → gaps.policy ≠ none → gaps.Walkable →
        (t.assemble .timeseries gaps = .error .notSortedByTime ↔
          Inverted times ∧ ¬ Fill.Exceeds gaps.range gaps.interval.seconds) ∧
        (t.assemble .timeseries gaps = .error (.overflow .subtract) ↔
          Fill.Exceeds gaps.range gaps.interval.seconds))) ∧
    ∀ format, format = .table ∨ (t.toFrame Frame.responseName).schema.shape = .none ∨
        (t.toFrame Frame.responseName).schema.shape = .wide ∧ gaps.policy = none →
      t.assemble format gaps = .ok (t.toFrame Frame.responseName) := by
  have haligned := length_of_ofResult h
  constructor
  · intro times htime
    refine ⟨fun hlong => ?_, fun hwide hpolicy hwalkable => ?_⟩
    · have hseries : (t.toFrame Frame.responseName).schema.shape ≠ .none := by
        rw [hlong]
        decide
      rw [assemble_of_spread hrows hlong]
      exact Frame.spread_eq_notSortedByTime_iff hlong
        (times_toFrame Frame.responseName hseries htime)
        (length_of_times_toFrame haligned hseries htime) _
    · have hseries : (t.toFrame Frame.responseName).schema.shape ≠ .none := by
        rw [hwide]
        decide
      have htimes := hasTimes_toFrame Frame.responseName haligned hseries
      obtain ⟨policy, hpolicy⟩ := Option.ne_none_iff_exists'.mp hpolicy
      rw [assemble_of_wide hrows hwide, Frame.fillGaps, hpolicy]
      dsimp only
      rw [Frame.fill_eq_overflow_iff htimes]
      refine ⟨?_, by simp [hwalkable.not_unfillable]⟩
      by_cases hexceeds : Fill.Exceeds gaps.range gaps.interval.seconds
      · rw [Frame.fill_eq, if_neg hwalkable.not_unfillable, if_pos hexceeds]
        exact ⟨(fun he => by cases he), fun he => absurd hexceeds he.2⟩
      · rw [Frame.fill_eq_notSortedByTime_iff (times_toFrame Frame.responseName hseries htime)
          (length_of_times_toFrame haligned hseries htime) hwalkable hexceeds, and_iff_left hexceeds]
  · intro format hplain
    by_cases hformat : format = .timeseries
    · subst hformat
      rcases hplain with hnot | hnone | ⟨hwide, hpolicy⟩
      · cases hnot
      · exact assemble_of_plain (.inr hnone) gaps
      · rw [assemble_of_wide hrows hwide, Frame.fillGaps, hpolicy]
    · rw [assemble]
      exact if_pos (.inr hformat)

/-- Three readings, of which the last one is earlier than the first. -/
def lateReading : ResultSet :=
  ⟨[⟨"time", .kind .timestamp⟩, ⟨"value", .kind .integer⟩],
    ⟨[[.timestamp (.near 60 0), .int 1], [.timestamp (.near 120 0), .int 2],
      [.timestamp (.near 0 0), .int 3]], none⟩⟩

/-- Three minutes from the start of 1970 on. -/
def minutesOfReading : GapFill := ⟨⟨.near 0 0, .near 120 0⟩, Span.ofSeconds 60, some .null⟩

theorem assemble_out_of_order_lateReading : ∃ t, ofResult lateReading = .ok t ∧
    t.rowCount ≠ 0 ∧ t.assemble .timeseries minutesOfReading = .error .notSortedByTime ∧
      t.assemble .table minutesOfReading = .ok (t.toFrame Frame.responseName) := by
  obtain ⟨t, ht⟩ : ∃ t, ofResult lateReading = .ok t := ⟨_, rfl⟩
  have hrows : t.rowCount ≠ 0 := by
    cases ht
    decide
  have htime : (t.columns.find? fun c => c.column.kind == .timestamp).map TableColumn.column =
      some (Pivot.timeColumn [.near 60 0, .near 120 0, .near 0 0]) := by
    cases ht
    rfl
  have hwide : (t.toFrame Frame.responseName).schema.shape = .wide := by
    cases ht
    rfl
  have hlate : Inverted [.near 60 0, .near 120 0, .near 0 0] :=
    ⟨0, 2, .near 60 0, .near 0 0, by decide, rfl, rfl, by decide⟩
  obtain ⟨hseries, hplain⟩ := assemble_out_of_order lateReading t ht hrows minutesOfReading
  refine ⟨t, ht, hrows, ?_, hplain .table (.inl rfl)⟩
  exact ((hseries _ htime).2 hwide nofun ⟨by decide, by decide, by decide⟩).1.mpr
    ⟨hlate, by decide⟩

/-- The minutes around the start of 1970, on buckets of the greatest width. -/
def widestBuckets : GapFill :=
  ⟨⟨.near (-60) 0, .near 120 0⟩, Fill.greatestWidth, some .null⟩

/-- The buckets can be walked over, but the readings are not found out of order. -/
theorem assemble_lateReading_overflow : ∃ t, ofResult lateReading = .ok t ∧
    t.rowCount ≠ 0 ∧ widestBuckets.Walkable ∧
      (t.toFrame Frame.responseName).schema.shape = .wide ∧
      (t.columns.find? fun c => c.column.kind == .timestamp).map TableColumn.column =
        some (Pivot.timeColumn [.near 60 0, .near 120 0, .near 0 0]) ∧
      Inverted [.near 60 0, .near 120 0, .near 0 0] ∧
      t.assemble .timeseries widestBuckets = .error (.overflow .subtract) := by
  refine ⟨_, rfl, by decide, ⟨by decide, by decide, by decide⟩, rfl, rfl, ?_, rfl⟩
  exact ⟨0, 2, .near 60 0, .near 0 0, by decide, rfl, rfl, by decide⟩

end Table

end SeriesQuery
