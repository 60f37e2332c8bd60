import SeriesQuery.Proofs.Frame.Buckets

/-!
# Filling as a function of the grid

Once the times of a frame are in order and its fields are as long as there are times, nothing
about the frame can make the filling fail: every bucket takes its row from all fields or from
none (`Fill.steps_eq_starts`).  What is left to fail is the grid, that is the width of the
buckets, the distance from the first of them to the end of the range, their number and the seconds
they start at.  So frames of the same times fail alike, and when they do not they are filled on the
same grid (`Frame.fill_eq_grid`).
-/

namespace SeriesQuery

namespace Fill

/-- The starts of so many buckets, the first of which is at `second`.  The first of them that
is no instant fails. -/
def starts (width : Int) : (count : Nat) → (second : Int) → Except ConversionError (List Instant)
  | 0, _ => .ok []
  | count + 1, second =>
    match Instant.ofSecond? second with
    | none => .error (.timeOutOfRange second)
    | some bucket => (starts width count (second + width)).map (bucket :: ·)

/-- The starts of the buckets of a range. -/
def grid (range : TimeRange) (interval : Span) : Except ConversionError (List Instant) :=
  let start := bucketStart range.start.second interval.seconds
  let count := bucketCount start range.stop.second interval.seconds
  if interval.Unfillable then .error .invalidInterval
  else if Exceeds range interval.seconds then .error (.overflow .subtract)
  else if maxBuckets < count then .error (.tooManyBuckets count)
  else starts interval.seconds count start

theorem starts_cases (width : Int) (count : Nat) (second : Int) :
    (∃ buckets, starts width count second = .ok buckets) ∨
      ∃ missed, starts width count second = .error (.timeOutOfRange missed) := by
  induction count generalizing second with
  | zero => exact .inl ⟨[], rfl⟩
  | succ count ih =>
    rw [starts]
    cases Instant.ofSecond? second with
    | none => exact .inr ⟨second, rfl⟩
    | some bucket =>
      rcases ih (second + width) with ⟨buckets, h⟩ | ⟨missed, h⟩
      · exact .inl ⟨bucket :: buckets, by rw [h]; rfl⟩
      · exact .inr ⟨missed, by rw [h]; rfl⟩

/-- Appending the rows of buckets to fields of one length fails only where a bucket starts. -/
theorem steps_eq_starts {source : List Field} {timeIndex : Nat}
    (htime : ∀ g, source[timeIndex]? = some g → g.column.kind = .timestamp)
    {times : List Instant} (haligned : ∀ g ∈ source, g.column.length = times.length)
    (policy : FillPolicy) (width : Int) (count : Nat) (second : Int)
    (cells : Nat → (g : Field) → List g.column.kind.Cell) :
    steps source timeIndex policy times width count second (columns source cells) =
      (starts width count second).map fun buckets => columns source fun i g =>
        cells i g ++ bucketCells timeIndex policy times i g (cells i g).getLast?.join buckets := by
  induction count generalizing second cells with
  | zero =>
    show Except.ok (columns source cells) = Except.ok _
    simp only [bucketCells, List.append_nil]
  | succ count ih =>
    rw [steps, starts]
    cases Instant.ofSecond? second with
    | none => rfl
    | some bucket =>
      -- A row that there is a time for is in every field.
      have hrow : ∀ row, firstRow? times bucket = some row →
          ∀ g ∈ source, row < g.column.length := by
        intro row hrow g hg
        rw [haligned g hg]
        exact (List.getElem?_eq_some_iff.mp (firstRow?_eq_some_iff.mp hrow).1).1
      dsimp only
      rw [(appendAt_columns htime times policy bucket cells _).mpr ⟨hrow, rfl⟩]
      dsimp only
      rw [ih]
      cases starts width count (second + width) with
      | error e => rfl
      | ok buckets =>
        show Except.ok _ = Except.ok _
        simp [bucketCells]

end Fill

/-- Filling a frame of ascending times puts every field on the grid. -/
theorem Frame.fill_eq_grid {f : Frame} {timeIndex : Nat} {times : List Instant}
    (htimes : f.times timeIndex = .ok times) (hasc : times.Pairwise (· ≤ ·)) (hne : times ≠ [])
    (haligned : ∀ g ∈ f.fields, g.column.length = times.length)
    (range : TimeRange) (interval : Span) (policy : FillPolicy) :
    f.fill timeIndex range interval policy =
      (Fill.grid range interval).map (Fill.filled f timeIndex policy times) := by
  have htime : ∀ h, f.fields[timeIndex]? = some h → h.column.kind = .timestamp := by
    intro h hh
    have hcolumn := times_eq_ok_iff.mp htimes
    rw [hh, Option.map_some, Option.some.injEq] at hcolumn
    rw [hcolumn]
    rfl
  rw [fill_eq, Fill.grid]
  split
  next => rfl
  next hwidth =>
    rw [Span.Unfillable] at hwidth
    split
    next => rfl
    next =>
      split
      next hmany => rw [fillBuckets, if_pos hmany]; rfl
      next hcount =>
        rw [fillBuckets_eq htimes hasc hne policy (by omega) (by omega)
          (Fill.dvd_bucketStart _ _) (Nat.not_lt.mp hcount), Fill.steps_eq_starts htime haligned]
        cases Fill.starts interval.seconds _ _ with
        | error e => rfl
        | ok buckets => rfl

end SeriesQuery
