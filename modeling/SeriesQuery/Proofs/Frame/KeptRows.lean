import SeriesQuery.Proofs.Frame.Buckets

/-!
# Rows that filling keeps

A query that puts its rows into buckets of a width, and takes only rows of a range,
gives times that are starts of buckets.  Every one of these starts is on the grid
that filling the gaps of the range walks over (`mem_grid`), also at the two ends of
the range: the first bucket may start before the range, and the last instant of the
range may lie anywhere in its bucket.  So filling drops none of the rows
(`fill_keeps_rows`).
-/

namespace SeriesQuery

/-- The cells of a row by field, each with its kind; nothing where a field has no such
row. -/
def Frame.row (f : Frame) (row : Nat) : List ((k : Kind) × Option k.Cell) :=
  f.fields.map fun g => ⟨g.column.kind, g.column.cells[row]?⟩

namespace Fill

/-- The start of the bucket of a second in a range is so many widths after the first
one, and is counted among the buckets. -/
theorem bucketStart_eq_add {width first last second : Int} (hwidth : 0 < width)
    (hfirst : first ≤ second) (hlast : second ≤ last) :
    ∃ n : Nat, bucketStart second width = bucketStart first width + n * width ∧
      n < bucketCount (bucketStart first width) last width := by
  have hle : first / width ≤ second / width := Int.ediv_le_ediv hwidth hfirst
  obtain ⟨n, hn⟩ := Int.eq_ofNat_of_zero_le (Int.sub_nonneg.mpr hle)
  have heq : bucketStart second width = bucketStart first width + n * width := by
    unfold bucketStart
    rw [← Int.add_mul, ← hn]
    congr 1
    omega
  have hstart : bucketStart second width ≤ second := Int.ediv_mul_le second (by omega)
  exact ⟨n, heq, (lt_bucketCount_iff hwidth).mpr (by omega)⟩

/-- The bucket of every instant of a range is on the grid of the range. -/
theorem mem_grid {range : TimeRange} {width : Int} (hwidth : 0 < width)
    {buckets : List Instant} (h : grid? range width = some buckets) {t time : Instant}
    (hstart : range.start ≤ t) (hstop : t ≤ range.stop)
    (hsecond : time.second = bucketStart t.second width) (hnano : time.nano = 0) :
    time ∈ buckets := by
  obtain ⟨n, hn, hlt⟩ := bucketStart_eq_add hwidth (Instant.second_le_of_le hstart)
    (Instant.second_le_of_le hstop)
  obtain ⟨hlen, hat⟩ := buckets?_eq_some_iff.mp h
  rw [← hlen] at hlt
  have hbucket := List.getElem?_eq_getElem hlt
  have htime : Instant.ofSecond? (bucketStart t.second width) = some time :=
    Instant.ofSecond?_eq_some_iff.mpr ⟨hsecond, hnano⟩
  have hsame : Instant.ofSecond? (bucketStart t.second width) = some buckets[n] :=
    Instant.ofSecond?_eq_some_iff.mpr (hn ▸ hat n _ hbucket)
  rw [hsame, Option.some.injEq] at htime
  exact htime ▸ List.getElem_mem hlt

/-- A bucket that has a row holds the cell of that row. -/
theorem getElem?_bucketCells_of_row {timeIndex : Nat} {policy : FillPolicy}
    {times buckets : List Instant} {index : Nat} {g : Field} {previous : g.column.kind.Cell}
    {i row : Nat} {bucket : Instant} (hbucket : buckets[i]? = some bucket)
    (hrow : firstRow? times bucket = some row) :
    (bucketCells timeIndex policy times index g previous buckets)[i]? =
      some (g.column.cellAt row) := by
  induction buckets generalizing previous i with
  | nil => cases hbucket
  | cons b buckets ih =>
    rw [bucketCells]
    cases i with
    | zero =>
      cases hbucket
      rw [List.getElem?_cons_zero, bucketCell, hrow]
    | succ i => exact ih hbucket

end Fill

open Fill

/-- The place of a time among buckets. -/
def Fill.placeOf (buckets : List Instant) (time : Option Instant) : Nat :=
  (time.bind (firstRow? buckets)).getD 0

namespace Frame

/-- The frame that filling gives holds a row of the source at the place of its time. -/
theorem row_filled_of_row {f : Frame} {timeIndex : Nat} {policy : FillPolicy}
    {times buckets : List Instant} (hrows : HasRows f.fields times buckets) {i row : Nat}
    {time : Instant} (hbucket : buckets[i]? = some time)
    (hrow : firstRow? times time = some row) :
    (filled f timeIndex policy times buckets).row i = f.row row := by
  refine List.ext_getElem? fun j => ?_
  simp only [Frame.row, filled, List.getElem?_map, columns, List.getElem?_mapIdx]
  cases hg : f.fields[j]? with
  | none => rfl
  | some g =>
    have hlt : row < g.column.length :=
      hrows time (List.mem_of_getElem? hbucket) row hrow g (List.mem_of_getElem? hg)
    simp only [Option.map_some, Field.withCells, List.getElem?_toArray,
      getElem?_bucketCells_of_row hbucket hrow, Column.cellAt_eq hlt]

/-- The field of times tells which bucket a row of the filled frame belongs to. -/
theorem bucket_of_row_filled {f : Frame} {timeIndex : Nat} {policy : FillPolicy}
    {times buckets : List Instant} (htimes : f.times timeIndex = .ok times) {i row : Nat}
    (heq : (filled f timeIndex policy times buckets).row i = f.row row) :
    buckets[i]? = times[row]? := by
  obtain ⟨⟨name, labels, column⟩, hg, hcolumn⟩ := Option.map_eq_some_iff.mp
    (times_eq_ok_iff.mp htimes)
  dsimp only at hcolumn
  subst hcolumn
  have hcells := congrArg (fun cells => cells[timeIndex]?) heq
  simp only [Frame.row, filled, List.getElem?_map, columns, List.getElem?_mapIdx, hg, Option.map_some,
    Field.withCells, Option.some.injEq, Sigma.mk.injEq, heq_eq_eq, true_and,
    bucketCells_time] at hcells
  have hsame : (buckets.map some).toArray[i]? = (times.map some).toArray[row]? := hcells
  rw [List.getElem?_toArray, List.getElem?_toArray, List.getElem?_map, List.getElem?_map] at hsame
  exact Option.map_injective (fun _ _ => Option.some.inj) hsame

/-- No row of a bucketed query is lost by filling its gaps.  If the times of a frame
ascend and are starts of buckets that hold instants of the range, then every row is in
the filled frame, with all its cells, exactly once and in the order of the rows, under
every policy. -/
theorem fill_keeps_rows (f : Frame) (timeIndex : Nat) (range : TimeRange) (interval : Span)
    (policy : FillPolicy) (g : Frame) (times : List Instant)
    (htimes : (f.fields[timeIndex]?).map Field.column = some (Pivot.timeColumn times))
    (hasc : times.Pairwise (· < ·))
    (hgrid : ∀ time ∈ times, ∃ t : Instant, range.start ≤ t ∧ t ≤ range.stop ∧
      time.second = bucketStart t.second interval.seconds ∧ time.nano = 0)
    (hfill : f.fill timeIndex range interval policy = .ok g) :
    ∃ place : Nat → Nat,
      (∀ row row', row < row' → row' < times.length → place row < place row') ∧
        ∀ row < times.length, g.row (place row) = f.row row ∧
          ∀ i, g.row i = f.row row → i = place row := by
  have hle : times.Pairwise (· ≤ ·) := hasc.imp le_of_lt
  have htimes' := times_eq_ok_iff.mpr htimes
  by_cases hne : times = []
  · subst hne
    exact ⟨id, fun _ _ _ h => (nomatch h), fun _ h => (nomatch h)⟩
  obtain ⟨⟨hwidth, -⟩, -, buckets, hbuckets, hrows, rfl⟩ :=
    (fill_eq_ok_iff htimes' hle hne range interval policy g).mp hfill
  have hbasc := buckets?_pairwise hwidth hbuckets
  -- Every time is the start of one bucket.
  have hplace : ∀ row < times.length, buckets[placeOf buckets times[row]?]? = times[row]? := by
    intro row hlt
    obtain ⟨t, hstart, hstop, hsecond, hnano⟩ := hgrid _ (List.getElem_mem hlt)
    obtain ⟨i, hi⟩ := List.getElem?_of_mem
      (mem_grid hwidth hbuckets hstart hstop hsecond hnano)
    rw [List.getElem?_eq_getElem hlt, placeOf, Option.bind_some,
      firstRow?_of_getElem? hbasc hi, Option.getD_some, hi]
  refine ⟨fun row => placeOf buckets times[row]?, fun row row' hrr hlt => ?_,
    fun row hlt => ⟨?_, fun i hi => ?_⟩⟩
  · have hget := List.getElem?_eq_getElem (Nat.lt_trans hrr hlt)
    have hget' := List.getElem?_eq_getElem hlt
    exact (Instant.getElem?_lt_iff hbasc ((hplace row (Nat.lt_trans hrr hlt)).trans hget)
      ((hplace row' hlt).trans hget')).mp ((Instant.getElem?_lt_iff hasc hget hget').mpr hrr)
  · have hget := List.getElem?_eq_getElem hlt
    exact row_filled_of_row hrows ((hplace row hlt).trans hget) (firstRow?_of_getElem? hasc hget)
  · have hbucket := bucket_of_row_filled htimes' hi
    have hget := hbucket.trans (List.getElem?_eq_getElem hlt)
    show i = placeOf buckets times[row]?
    rw [← hbucket, hget, placeOf, Option.bind_some, firstRow?_of_getElem? hbasc hget,
      Option.getD_some]

/-- Values at the start of two minutes, of which one begins three minutes before 1970. -/
def minutes : Frame :=
  ⟨"m", [.ofColumn "time" (Pivot.timeColumn [.near (-180) 0, .near 0 0]),
    .ofColumn "value" ⟨.boolean, #[some true, none]⟩], none⟩

/-- A range that starts within the first of these minutes and ends within the other. -/
def withinMinutes : TimeRange := ⟨.near (-121) 65535, .near 0 1⟩

/-- Both rows are kept, at the two ends of the four buckets. -/
theorem fill_keeps_rows_at_ends : ∃ g, minutes.fill 0 withinMinutes (Span.ofSeconds 60) .previous =
      .ok g ∧ g.rowCount = 4 ∧ ∃ place : Nat → Nat,
        (∀ row row', row < row' → row' < 2 → place row < place row') ∧
          ∀ row < 2, g.row (place row) = minutes.row row ∧
            ∀ i, g.row i = minutes.row row → i = place row := by
  refine ⟨_, rfl, rfl, fill_keeps_rows minutes 0 withinMinutes (Span.ofSeconds 60) .previous _ _ rfl
    (by decide) (fun time htime => ?_) rfl⟩
  rcases List.mem_cons.mp htime with rfl | htime
  · exact ⟨withinMinutes.start, by decide, by decide, by decide, rfl⟩
  · obtain rfl := List.mem_singleton.mp htime
    exact ⟨withinMinutes.stop, by decide, by decide, by decide, rfl⟩

end Frame

end SeriesQuery
