import SeriesQuery.Proofs.Frame.KeptRows
import SeriesQuery.Proofs.Frame.Shape

/-!
# Filling twice

A frame whose gaps are filled has none left: filling it again on the same grid gives it back,
whatever the policies (`Frame.fill_fill`).

Filling gives a frame whose times are the buckets, one row for each, in all fields
(`Frame.onGrid_of_fill`).  On such a frame every bucket finds the row of its own place, so nothing
is dropped and no policy is asked (`filled_self`).  A frame that is left without rows, because it
had none or because the range has no buckets, is on the grid as well, but for another reason: there
are no times to put on buckets.
-/

namespace SeriesQuery

open Fill

namespace Frame

variable {f g : Frame} {timeIndex : Nat} {range : TimeRange} {interval : Span}
  {policy : FillPolicy} {times buckets : List Instant}

/-! ## Frames on a grid -/

/-- A frame has a row for each bucket of a range, with the start of the bucket as its time, or no
rows at all. -/
structure OnGrid (f : Frame) (timeIndex : Nat) (range : TimeRange) (interval : Span)
    (times : List Instant) : Prop where
  width : 0 < (interval.seconds : Int) ∧ (interval.seconds : Int) ≤ Digits.maxInt64
  fits : ¬ Exceeds range interval.seconds
  count_le : bucketCount (bucketStart range.start.second interval.seconds) range.stop.second
    interval.seconds ≤ maxBuckets
  times_eq : f.times timeIndex = .ok times
  aligned : ∀ g ∈ f.fields, g.column.length = times.length
  buckets : times = [] ∨ grid? range interval.seconds = some times

theorem OnGrid.ascending (h : f.OnGrid timeIndex range interval times) :
    times.Pairwise (· < ·) := by
  rcases h.buckets with rfl | hgrid
  · exact List.Pairwise.nil
  · exact buckets?_pairwise h.width.1 hgrid

theorem onGrid_of_fill (h : f.fill timeIndex range interval policy = .ok g) :
    ∃ buckets, g.OnGrid timeIndex range interval buckets := by
  obtain ⟨hwidth, hfits, hcount, times, buckets, htimes, rfl, hgrid⟩ := fill_cases h
  exact ⟨buckets, hwidth, hfits, hcount, times_eq_ok_iff.mpr (timeColumn_filled htimes),
    fun g => aligned_filled, hgrid⟩

/-! ## Filling again -/

/-- A field with a row for each bucket keeps its cells. -/
theorem bucketCells_self (hasc : times.Pairwise (· < ·)) {s : Field}
    (hlength : s.column.length = times.length) (policy : FillPolicy) (index : Nat)
    (previous : s.column.kind.Cell) :
    bucketCells timeIndex policy times index s previous times = s.column.cells.toList := by
  refine List.ext_getElem? fun i => ?_
  by_cases hi : i < times.length
  · have htime := List.getElem?_eq_getElem hi
    rw [getElem?_bucketCells_of_row htime (firstRow?_of_getElem? hasc htime),
      ← Column.cellAt_eq (hlength ▸ hi), Array.getElem?_toList]
  · have hcells : s.column.cells.toList.length = times.length := hlength
    rw [List.getElem?_eq_none (by rw [length_bucketCells]; omega),
      List.getElem?_eq_none (by omega)]

theorem filled_self (hasc : times.Pairwise (· < ·))
    (haligned : ∀ s ∈ f.fields, s.column.length = times.length) (policy : FillPolicy) :
    filled f timeIndex policy times times = f := by
  have hfields : columns f.fields (fun i s => bucketCells timeIndex policy times i s none times) =
      f.fields := by
    refine List.ext_getElem? fun i => ?_
    rw [columns, List.getElem?_mapIdx]
    cases hs : f.fields[i]? with
    | none => rfl
    | some s =>
      rw [Option.map_some, bucketCells_self hasc (haligned s (List.mem_of_getElem? hs))]
      rfl
  rw [filled, hfields]

/-- A frame on the grid is filled already. -/
theorem OnGrid.fill_eq (h : f.OnGrid timeIndex range interval times) (policy : FillPolicy) :
    f.fill timeIndex range interval policy = .ok f := by
  have hself : filled f timeIndex policy times times = f :=
    filled_self h.ascending h.aligned policy
  by_cases hne : times = []
  · subst hne
    have hwidth : ¬ interval.Unfillable :=
      not_or.mpr ⟨Int.not_le.mpr h.width.1, Int.not_lt.mpr h.width.2⟩
    have hempty : f.emptyCopy = f := by
      refine Eq.trans ?_ hself
      exact congrArg (fun fields => { f with fields := fields }) (emptyCopy_fields f)
    rw [fill_eq, if_neg hwidth, if_neg h.fits, fillBuckets, if_neg (Nat.not_lt.mpr h.count_le),
      h.times_eq]
    show Except.ok f.emptyCopy = _
    rw [hempty]
  · have hgrid := h.buckets.resolve_left hne
    refine (fill_eq_ok_iff h.times_eq (h.ascending.imp le_of_lt) hne range interval policy f).mpr
      ⟨h.width, h.count_le, times, hgrid, ?_, hself.symm⟩
    intro bucket _ row hrow s hs
    rw [h.aligned s hs]
    exact (List.getElem?_eq_some_iff.mp (firstRow?_eq_some_iff.mp hrow).1).1

/-- Filling the gaps of a frame a second time changes nothing, whatever is to stand in them then.
-/
theorem fill_fill (f g : Frame) (timeIndex : Nat) (range : TimeRange) (interval : Span)
    (first second : FillPolicy) (h : f.fill timeIndex range interval first = .ok g) :
    g.fill timeIndex range interval second = .ok g := by
  obtain ⟨buckets, hgrid⟩ := onGrid_of_fill h
  exact hgrid.fill_eq second

/-- Values at two minutes, and a moment after the second one a time without a value. -/
def uneven : Frame :=
  ⟨"m", [.ofColumn "time" (Pivot.timeColumn [.near (-180) 0, .near 0 0, .near 0 1]),
    .ofColumn "value" ⟨.integer, #[some 1, none]⟩], none⟩

/-- The null that stands at the last minute is a value like others, and is not filled. -/
theorem fill_fill_uneven : ∃ g,
    uneven.fill 0 withinMinutes (Span.ofSeconds 60) .previous = .ok g ∧
      g.fields[1]? = some (.ofColumn "value" ⟨.integer, #[some 1, some 1, some 1, none]⟩) ∧
      g.fill 0 withinMinutes (Span.ofSeconds 60) .previous = .ok g := by
  obtain ⟨g, hg, hvalue⟩ : ∃ g,
      uneven.fill 0 withinMinutes (Span.ofSeconds 60) .previous = .ok g ∧
        g.fields[1]? = some (.ofColumn "value" ⟨.integer, #[some 1, some 1, some 1, none]⟩) :=
    ⟨_, rfl, rfl⟩
  refine ⟨g, hg, hvalue, ?_⟩
  exact fill_fill uneven g 0 withinMinutes (Span.ofSeconds 60) .previous .previous hg

end Frame

end SeriesQuery
