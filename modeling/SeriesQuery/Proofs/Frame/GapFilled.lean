import SeriesQuery.Frame.Assemble
import SeriesQuery.Proofs.Frame.Spread

/-!
# A long series with its gaps filled

A long series is first spread over its distinct times, where the policy fills the cells
of series that have no row there, and the wide frame is then put on the grid, where the
policy fills the buckets at which no series has a row.  `BucketCell` says what both
together leave in a bucket of a series.  A policy that repeats carries the last
observation of the series forward, up to the last time of the source that is a bucket.
-/

namespace SeriesQuery

/-- The name and the labels of a field. -/
def Field.key (g : Field) : SeriesKey := ⟨g.name, g.labels⟩

/-- A range and a width of buckets that the filling of gaps takes. -/
structure Fill.Accepts (range : TimeRange) (width : Int) : Prop where
  /-- Buckets are not empty. -/
  width_pos : 0 < width
  /-- Their width is a number of 63 bits. -/
  width_le : width ≤ Digits.maxInt64
  /-- They are not too many. -/
  count_le : bucketCount (bucketStart range.start.second width) range.stop.second width ≤ maxBuckets
  /-- They start at instants. -/
  starts : ∀ n : Nat, bucketStart range.start.second width + n * width ≤ range.stop.second →
    ∃ bucket, Instant.ofSecond? (bucketStart range.start.second width + n * width) = some bucket

/-- The starts of the buckets of a range, in their order. -/
structure Fill.IsGrid (range : TimeRange) (width : Int) (buckets : List Instant) : Prop where
  /-- There are as many as start within the range. -/
  lt_length_iff : ∀ n : Nat, n < buckets.length ↔
    bucketStart range.start.second width + n * width ≤ range.stop.second
  /-- They follow each other at the distance of their width. -/
  start : ∀ (n : Nat) (bucket : Instant), buckets[n]? = some bucket →
    bucket.second = bucketStart range.start.second width + n * width ∧ bucket.nano = 0

/-- What the cell of a series in a bucket has to be.  `c` is the value column of the
series, and `times` are the times of the source. -/
structure BucketCell (f : Frame) (times buckets : List Instant) (policy : FillPolicy)
    (labels : Labels) (c : Column) (bucket : Instant) (cell : c.kind.Cell) : Prop where
  /-- If the series has rows at the bucket, the last of them counts, also if it is null. -/
  observed : ∀ value, f.lastCell times labels c (· = bucket) times.length = some value →
    cell = value
  /-- Nothing is put in other buckets under the policy that leaves them empty. -/
  null : policy = .null → f.lastCell times labels c (· = bucket) times.length = none →
    cell = none
  /-- A constant is put in other buckets, as a cell of the kind of the series. -/
  constant : ∀ x, policy = .constant x →
    f.lastCell times labels c (· = bucket) times.length = none → c.kind.ConstantCell x cell
  /-- If all times up to the bucket are buckets, the policy that repeats puts the last
  observation up to the bucket, and null before the first one. -/
  carried : policy = .previous → (∀ time ∈ times, time ≤ bucket → time ∈ buckets) →
    cell = (f.lastCell times labels c (· ≤ bucket) times.length).join
  /-- In any case it puts the last observation up to the last bucket that is a time. -/
  held : policy = .previous → ∀ seen ∈ buckets, seen ≤ bucket → seen ∈ times →
    (∀ later ∈ buckets, seen < later → later ≤ bucket → later ∉ times) →
      cell = (f.lastCell times labels c (· ≤ seen) times.length).join
  /-- Before the first bucket that is a time it puts null. -/
  early : policy = .previous → (∀ seen ∈ buckets, seen ≤ bucket → seen ∉ times) → cell = none

/-! ## The cells of a spread series -/

namespace Pivot

variable {f : Frame} {times : List Instant} {labels : Labels} {c : Column}

theorem getElem?_slotsAfter {count place : Nat} {slot : Option c.kind.Cell} :
    (slotsAfter f times labels c count)[place]? = some slot ↔
      ∃ time, (distinct times)[place]? = some time ∧
        f.lastCell times labels c (· = time) count = slot := by
  rw [slotsAfter, List.getElem?_map, Option.map_eq_some_iff]

/-- Behind the last row of the labels with a time up to a bound, no row has a later time
up to it. -/
theorem lastCell_eq_none_of_later (hasc : times.Pairwise (· ≤ ·)) {row : Nat}
    {seen later time : Instant} (hseen : times[row]? = some seen)
    (hlast : ∀ behind, row < behind → behind < times.length → f.labelSet behind = labels →
      ∀ t, times[behind]? = some t → decide (t ≤ time) = false)
    (hlt : seen < later) (hle : later ≤ time) :
    f.lastCell times labels c (· = later) times.length = none := by
  refine Frame.lastCell_eq_none_iff.mpr fun other hother hlabels t ht => ?_
  refine decide_eq_false fun heq => ?_
  subst heq
  by_cases hbehind : row < other
  · exact of_decide_eq_false (hlast other hbehind hother hlabels t ht) hle
  · -- The other row is not behind, so its time is not later.
    have hts : t ≤ seen := by
      obtain ⟨hlt₁, rfl⟩ := List.getElem?_eq_some_iff.mp hseen
      obtain ⟨hlt₂, rfl⟩ := List.getElem?_eq_some_iff.mp ht
      rcases Nat.lt_or_eq_of_le (Nat.le_of_not_lt hbehind) with hlt | rfl
      · exact List.pairwise_iff_getElem.mp hasc other row hlt₂ hlt₁ hlt
      · exact le_refl _
    exact hts hlt

/-- The last cell written up to the slot of a time is the last observation up to that
time. -/
theorem lastWritten_slotsAfter (hasc : times.Pairwise (· ≤ ·)) {place : Nat} {time : Instant}
    (hplace : (distinct times)[place]? = some time) :
    SeriesCells.lastWritten none
        ((slotsAfter f times labels c times.length).take (place + 1)) =
      (f.lastCell times labels c (· ≤ time) times.length).join := by
  have hdistinct := distinct_pairwise hasc
  cases hlast : f.lastCell times labels c (· ≤ time) times.length with
  | none =>
    rw [Option.join_none]
    refine SeriesCells.lastWritten_of_none fun slot hslot => ?_
    obtain ⟨i, hi⟩ := List.getElem?_of_mem hslot
    rw [List.getElem?_take] at hi
    split at hi
    next hlt =>
      obtain ⟨time', htime', rfl⟩ := getElem?_slotsAfter.mp hi
      have hle : time' ≤ time :=
        (Instant.getElem?_le_iff hdistinct htime' hplace).mpr (Nat.le_of_lt_succ hlt)
      refine Frame.lastCell_eq_none_iff.mpr fun row hrow hlabels t ht => ?_
      have hafter := Frame.lastCell_eq_none_iff.mp hlast row hrow hlabels t ht
      exact decide_eq_false fun heq => of_decide_eq_false hafter (heq ▸ hle)
    next => cases hi
  | some cell =>
    obtain ⟨row, hrow, hlabels, ⟨t, ht, hle⟩, hcell, hlater⟩ :=
      Frame.lastCell_eq_some_iff.mp hlast
    have hle := of_decide_eq_true hle
    obtain ⟨i, hi⟩ := List.getElem?_of_mem (mem_distinct.mpr (List.mem_of_getElem? ht))
    have hile : i ≤ place := (Instant.getElem?_le_iff hdistinct hi hplace).mp hle
    rw [Option.join_some]
    refine SeriesCells.lastWritten_of_last (i := i) ?_ fun slot hslot => ?_
    · rw [List.getElem?_take_of_lt (Nat.lt_succ_of_le hile), getElem?_slotsAfter]
      refine ⟨t, hi, Frame.lastCell_eq_some_iff.mpr
        ⟨row, hrow, hlabels, ⟨t, ht, decide_eq_true rfl⟩, hcell, fun later hl hlt hof u hu => ?_⟩⟩
      have hafter := of_decide_eq_false (hlater later hl hlt hof u hu)
      exact decide_eq_false fun heq => hafter (heq ▸ hle)
    · -- A cell in a later slot would be a later observation.
      obtain ⟨j, hj⟩ := List.getElem?_of_mem hslot
      rw [List.getElem?_drop, List.getElem?_take] at hj
      split at hj
      next hlt =>
        obtain ⟨u, hu, rfl⟩ := getElem?_slotsAfter.mp hj
        have htu : t < u := (Instant.getElem?_lt_iff hdistinct hi hu).mpr (by omega)
        have hut : u ≤ time :=
          (Instant.getElem?_le_iff hdistinct hu hplace).mpr (Nat.le_of_lt_succ hlt)
        exact lastCell_eq_none_of_later hasc ht hlater htu hut
      next => cases hj

end Pivot

/-! ## The cells on the grid -/

namespace Fill

open Pivot

/-- The cells of a spread series. -/
def spreadCells (f : Frame) (times : List Instant) (policy : FillPolicy) (labels : Labels)
    (c : Column) : List c.kind.Cell :=
  SeriesCells.fillSlots c.kind policy none (slotsAfter f times labels c times.length)

/-- The slots of a series on the grid: the cell of the spread series at a bucket that is
a time, and nothing at the others. -/
def gridSlots (f : Frame) (times buckets : List Instant) (policy : FillPolicy)
    (labels : Labels) (c : Column) : List (Option c.kind.Cell) :=
  buckets.map fun bucket => (firstRow? (distinct times) bucket).map fun row =>
    ((spreadCells f times policy labels c)[row]?).join

/-- The cells of a series on the grid. -/
def gridCells (f : Frame) (times buckets : List Instant) (policy : FillPolicy)
    (labels : Labels) (c : Column) : List c.kind.Cell :=
  SeriesCells.fillSlots c.kind policy none (gridSlots f times buckets policy labels c)

variable {f : Frame} {times buckets : List Instant} {policy : FillPolicy} {labels : Labels}
  {c : Column} {i : Nat} {bucket : Instant}

theorem length_gridCells :
    (gridCells f times buckets policy labels c).length = buckets.length := by
  rw [gridCells, SeriesCells.length_fillSlots, gridSlots, List.length_map]

theorem gridSlots_of_not_mem (hbucket : buckets[i]? = some bucket) (hnot : bucket ∉ times) :
    (gridSlots f times buckets policy labels c)[i]? = some none := by
  rw [gridSlots, List.getElem?_map, hbucket, Option.map_some,
    firstRow?_eq_none_iff.mpr fun h => hnot (mem_distinct.mp h)]
  rfl

theorem gridSlots_of_spread (hasc : times.Pairwise (· ≤ ·)) (hbucket : buckets[i]? = some bucket)
    {place : Nat} (hplace : (distinct times)[place]? = some bucket) {cell : c.kind.Cell}
    (hcell : (spreadCells f times policy labels c)[place]? = some cell) :
    (gridSlots f times buckets policy labels c)[i]? = some (some cell) := by
  rw [gridSlots, List.getElem?_map, hbucket, Option.map_some,
    firstRow?_of_getElem? (distinct_pairwise hasc) hplace, Option.map_some, hcell]
  rfl

/-- An observation at a bucket stands in it. -/
theorem gridSlots_of_observed (policy : FillPolicy) (hasc : times.Pairwise (· ≤ ·))
    (hbucket : buckets[i]? = some bucket) {cell : c.kind.Cell}
    (hcell : f.lastCell times labels c (· = bucket) times.length = some cell) :
    (gridSlots f times buckets policy labels c)[i]? = some (some cell) := by
  obtain ⟨row, -, -, ⟨time, htime, heq⟩, -, -⟩ := Frame.lastCell_eq_some_iff.mp hcell
  obtain rfl := of_decide_eq_true heq
  obtain ⟨place, hplace⟩ := List.getElem?_of_mem (mem_distinct.mpr (List.mem_of_getElem? htime))
  refine gridSlots_of_spread hasc hbucket hplace ?_
  exact SeriesCells.getElem?_fillSlots_of_some (getElem?_slotsAfter.mpr ⟨_, hplace, hcell⟩)

/-- At a bucket that is a time the policy that repeats puts the last observation. -/
theorem gridSlots_previous (hasc : times.Pairwise (· ≤ ·)) (hbucket : buckets[i]? = some bucket)
    (hmem : bucket ∈ times) :
    (gridSlots f times buckets .previous labels c)[i]? =
      some (some (f.lastCell times labels c (· ≤ bucket) times.length).join) := by
  obtain ⟨place, hplace⟩ := List.getElem?_of_mem (mem_distinct.mpr hmem)
  refine gridSlots_of_spread hasc hbucket hplace ?_
  have hlt : place < (slotsAfter f times labels c times.length).length := by
    rw [slotsAfter, List.length_map]
    exact (List.getElem?_eq_some_iff.mp hplace).1
  rw [spreadCells, SeriesCells.getElem?_fillSlots_previous hlt, lastWritten_slotsAfter hasc hplace]

/-- Without an observation at a bucket a policy that does not repeat fills it, whether
another series has one there or not. -/
theorem gridCells_of_ne (hasc : times.Pairwise (· ≤ ·)) (hpolicy : policy ≠ .previous)
    (hbucket : buckets[i]? = some bucket)
    (hnone : f.lastCell times labels c (· = bucket) times.length = none) :
    (gridCells f times buckets policy labels c)[i]? =
      some (SeriesCells.missingCell c.kind policy none) := by
  by_cases hmem : bucket ∈ times
  · obtain ⟨place, hplace⟩ := List.getElem?_of_mem (mem_distinct.mpr hmem)
    refine SeriesCells.getElem?_fillSlots_of_some (gridSlots_of_spread hasc hbucket hplace ?_)
    exact SeriesCells.getElem?_fillSlots_of_none hpolicy
      (getElem?_slotsAfter.mpr ⟨_, hplace, hnone⟩)
  · exact SeriesCells.getElem?_fillSlots_of_none hpolicy (gridSlots_of_not_mem hbucket hmem)

theorem gridCells_previous (hbucket : buckets[i]? = some bucket) :
    (gridCells f times buckets .previous labels c)[i]? =
      some (SeriesCells.lastWritten none
        ((gridSlots f times buckets .previous labels c).take (i + 1))) := by
  refine SeriesCells.getElem?_fillSlots_previous ?_
  rw [gridSlots, List.length_map]
  exact (List.getElem?_eq_some_iff.mp hbucket).1

/-- A slot up to that of a bucket is the slot of an earlier bucket, or its own. -/
theorem bucket_of_mem_slots (hbuckets : buckets.Pairwise (· < ·))
    (hbucket : buckets[i]? = some bucket) {j : Nat} {slot : Option c.kind.Cell}
    (hslot : ((gridSlots f times buckets policy labels c).take (i + 1))[j]? = some slot) :
    ∃ seen, buckets[j]? = some seen ∧ seen ≤ bucket ∧ (seen ∉ times → slot = none) := by
  rw [List.getElem?_take] at hslot
  split at hslot
  next hlt =>
    have hseen : ∃ seen, buckets[j]? = some seen := by
      rw [gridSlots, List.getElem?_map, Option.map_eq_some_iff] at hslot
      obtain ⟨seen, hseen, -⟩ := hslot
      exact ⟨seen, hseen⟩
    obtain ⟨seen, hseen⟩ := hseen
    refine ⟨seen, hseen, ?_, fun hnot => ?_⟩
    · exact (Instant.getElem?_le_iff hbuckets hseen hbucket).mpr (Nat.le_of_lt_succ hlt)
    · rw [gridSlots_of_not_mem hseen hnot, Option.some.injEq] at hslot
      exact hslot.symm
  next => cases hslot

/-- Before the first bucket that is a time the policy that repeats has nothing to
repeat. -/
theorem gridCells_early (hbuckets : buckets.Pairwise (· < ·))
    (hbucket : buckets[i]? = some bucket)
    (hnot : ∀ seen ∈ buckets, seen ≤ bucket → seen ∉ times) :
    (gridCells f times buckets .previous labels c)[i]? = some none := by
  rw [gridCells_previous hbucket, SeriesCells.lastWritten_of_none]
  intro slot hslot
  obtain ⟨j, hj⟩ := List.getElem?_of_mem hslot
  obtain ⟨seen, hseen, hle, hnone⟩ := bucket_of_mem_slots hbuckets hbucket hj
  exact hnone (hnot seen (List.mem_of_getElem? hseen) hle)

/-- The policy that repeats carries the last observation up to the last bucket that is a
time. -/
theorem gridCells_held (hasc : times.Pairwise (· ≤ ·)) (hbuckets : buckets.Pairwise (· < ·))
    (hbucket : buckets[i]? = some bucket) {seen : Instant} (hseen : seen ∈ buckets)
    (hle : seen ≤ bucket) (hmem : seen ∈ times)
    (hlast : ∀ later ∈ buckets, seen < later → later ≤ bucket → later ∉ times) :
    (gridCells f times buckets .previous labels c)[i]? =
      some (f.lastCell times labels c (· ≤ seen) times.length).join := by
  obtain ⟨j, hj⟩ := List.getElem?_of_mem hseen
  have hji : j ≤ i := (Instant.getElem?_le_iff hbuckets hj hbucket).mp hle
  rw [gridCells_previous hbucket]
  refine congrArg some (SeriesCells.lastWritten_of_last (i := j) ?_ fun slot hslot => ?_)
  · rw [List.getElem?_take_of_lt (Nat.lt_succ_of_le hji)]
    exact gridSlots_previous hasc hj hmem
  · obtain ⟨n, hn⟩ := List.getElem?_of_mem hslot
    rw [List.getElem?_drop] at hn
    obtain ⟨later, hlater, hle', hnone⟩ := bucket_of_mem_slots hbuckets hbucket hn
    have hlt : seen < later := (Instant.getElem?_lt_iff hbuckets hj hlater).mpr (by omega)
    exact hnone (hlast later (List.mem_of_getElem? hlater) hlt hle')

/-- Every cell on the grid is what the cell of its bucket has to be. -/
theorem bucketCell_of_grid (hasc : times.Pairwise (· ≤ ·)) (hbuckets : buckets.Pairwise (· < ·))
    (hbucket : buckets[i]? = some bucket) {cell : c.kind.Cell}
    (hcell : (gridCells f times buckets policy labels c)[i]? = some cell) :
    BucketCell f times buckets policy labels c bucket cell := by
  have hmissing : policy ≠ .previous →
      f.lastCell times labels c (· = bucket) times.length = none →
        cell = SeriesCells.missingCell c.kind policy none := fun hpolicy hnone => by
    rw [gridCells_of_ne hasc hpolicy hbucket hnone, Option.some.injEq] at hcell
    exact hcell.symm
  have hheld : policy = .previous → ∀ seen ∈ buckets, seen ≤ bucket → seen ∈ times →
      (∀ later ∈ buckets, seen < later → later ≤ bucket → later ∉ times) →
        cell = (f.lastCell times labels c (· ≤ seen) times.length).join := by
    rintro rfl seen hseen hle hmem hlast
    rw [gridCells_held hasc hbuckets hbucket hseen hle hmem hlast, Option.some.injEq] at hcell
    exact hcell.symm
  have hearly : policy = .previous →
      (∀ seen ∈ buckets, seen ≤ bucket → seen ∉ times) → cell = none := by
    rintro rfl hnot
    rw [gridCells_early hbuckets hbucket hnot, Option.some.injEq] at hcell
    exact hcell.symm
  refine ⟨fun value hvalue => ?_, ?_, ?_, fun hpolicy hgrid => ?_, hheld, hearly⟩
  · have hslot := gridSlots_of_observed policy hasc hbucket hvalue
    rw [gridCells, SeriesCells.getElem?_fillSlots_of_some hslot, Option.some.injEq] at hcell
    exact hcell.symm
  · rintro rfl hnone
    exact hmissing (by decide) hnone
  · rintro x rfl hnone
    exact Kind.constantCell_eq_iff.mp (hmissing (fun h => nomatch h) hnone).symm
  · rcases Instant.exists_latest times bucket with hnone | ⟨last, hmem, hle, hlast⟩
    · rw [hearly hpolicy fun seen _ hseen hmem => hnone seen hmem hseen]
      rw [Frame.lastCell_eq_none_iff.mpr fun row _ _ time htime =>
        decide_eq_false (hnone time (List.mem_of_getElem? htime))]
      rfl
    · rw [hheld hpolicy last (hgrid last hmem hle) hle hmem fun later _ hlt hl hlater =>
        hlast later hlater hl hlt]
      rw [Frame.lastCell_congr fun time htime => ?_]
      have hiff : time ≤ last ↔ time ≤ bucket := ⟨fun h => le_trans h hle, hlast time htime⟩
      exact decide_eq_decide.mpr hiff

/-- A grid that is accepted has buckets. -/
theorem Accepts.exists_grid {range : TimeRange} {width : Int} (h : Accepts range width) :
    ∃ buckets, grid? range width = some buckets ∧ IsGrid range width buckets := by
  have hlt : ∀ n : Nat,
      n < bucketCount (bucketStart range.start.second width) range.stop.second width ↔
        bucketStart range.start.second width + n * width ≤ range.stop.second := fun n =>
    lt_bucketCount_iff h.width_pos
  obtain ⟨buckets, hbuckets⟩ := exists_buckets? fun n hn => h.starts n ((hlt n).mp hn)
  obtain ⟨hlength, hstart⟩ := buckets?_eq_some_iff.mp hbuckets
  exact ⟨buckets, hbuckets, fun n => hlength ▸ hlt n, hstart⟩

theorem columns_key (source : List Field)
    (cells : Nat → (g : Field) → List g.column.kind.Cell) :
    (columns source cells).map Field.key = source.map Field.key := by
  refine List.ext_getElem? fun i => ?_
  rw [columns, List.getElem?_map, List.getElem?_mapIdx, List.getElem?_map, Option.map_map]
  rfl

/-- The cells that filling puts into the field of a spread series. -/
theorem bucketCells_seriesField (f : Frame) (times buckets : List Instant) (policy : FillPolicy)
    (key : SeriesKey) (c : Column) (i : Nat) :
    bucketCells 0 policy (distinct times) (i + 1)
        (seriesField policy (key, seriesAfter f times key.labels c times.length)) none buckets =
      gridCells f times buckets policy key.labels c := by
  have hcell : (seriesField policy
      (key, seriesAfter f times key.labels c times.length)).column.cellAt =
        fun row => ((spreadCells f times policy key.labels c)[row]?).join := by
    funext row
    show ((spreadCells f times policy key.labels c).toArray[row]?).join = _
    rw [List.getElem?_toArray]
    rfl
  rw [bucketCells_of_ne (Nat.succ_ne_zero i), hcell]
  rfl

end Fill

/-! ## The frame of a long series -/

open Fill

namespace Pivot

/-- The series of all rows. -/
theorem Written.mem_entries {f : Frame} {times : List Instant} {count : Nat} {m : SeriesMap}
    (hm : Written f times count m) {entry : SeriesKey × SeriesCells} (h : entry ∈ m.entries) :
    ∃ v ∈ f.valueFields, entry =
      (⟨v.name, entry.1.labels⟩, seriesAfter f times entry.1.labels v.column count) := by
  obtain ⟨key, s⟩ := entry
  have hfind := (SortedMap.mem_entries_iff SeriesKey.lt_irrefl hm.sorted).mp h
  obtain ⟨v, hv, row, hrow, rfl⟩ := hm.only key s hfind
  rw [hm.seen v hv row hrow, Option.some.injEq] at hfind
  exact ⟨v, hv, by rw [hfind]⟩

theorem Written.mem_keys_iff {f : Frame} {times : List Instant} {count : Nat} {m : SeriesMap}
    (hm : Written f times count m) {key : SeriesKey} :
    key ∈ m.keys ↔ ∃ v ∈ f.valueFields, ∃ row < count, key = ⟨v.name, f.labelSet row⟩ := by
  constructor
  · intro h
    obtain ⟨⟨_, s⟩, hentry, rfl⟩ := List.mem_map.mp h
    exact hm.only _ s ((SortedMap.mem_entries_iff SeriesKey.lt_irrefl hm.sorted).mp hentry)
  · rintro ⟨v, hv, row, hrow, rfl⟩
    have hentry := (SortedMap.mem_entries_iff SeriesKey.lt_irrefl hm.sorted).mpr
      (hm.seen v hv row hrow)
    exact List.mem_map.mpr ⟨_, hentry, rfl⟩

end Pivot

/-- A long table is spread, and the gaps of the wide frame are filled. -/
theorem Table.assemble_of_long {t : Table} {times : List Instant} {policy : FillPolicy}
    {gaps : GapFill} {wide : Frame} (hlong : (t.toFrame Frame.responseName).IsLong times)
    (hrows : times ≠ []) (hpolicy : gaps.policy = some policy)
    (hpivot : (t.toFrame Frame.responseName).pivot (t.toFrame Frame.responseName).schema policy =
      .ok wide) :
    t.assemble .timeseries gaps =
      wide.fill wide.schema.timeIndex gaps.range gaps.interval policy := by
  obtain ⟨time, htime, -⟩ := Option.map_eq_some_iff.mp hlong.time
  have hcount : (t.toFrame Frame.responseName).rowCount ≠ 0 := by
    cases hfields : (t.toFrame Frame.responseName).fields with
    | nil =>
      rw [hfields] at htime
      cases htime
    | cons g fields =>
      have hlength : g.column.length = times.length :=
        hlong.aligned g (hfields ▸ List.mem_cons_self)
      rw [Frame.rowCount, hfields]
      show g.column.length ≠ 0
      rw [hlength]
      exact fun h => hrows (List.eq_nil_of_length_eq_zero h)
  unfold assemble
  dsimp only
  rw [if_neg (fun h => h.elim hcount fun h => h rfl), hlong.shape, hpolicy, Option.getD_some]
  dsimp only
  rw [hpivot]
  dsimp only
  rw [Frame.fillGaps, hpolicy]

/-- The wide frame of a spread series is filled, since all its fields have a row for each
of the distinct times. -/
theorem Frame.fill_spread {f : Frame} {times : List Instant} (hasc : times.Pairwise (· ≤ ·))
    (hrows : times ≠ []) {m : Pivot.SeriesMap} (hm : Pivot.Written f times times.length m)
    {wide : Frame} {name : String} {policy : FillPolicy}
    (hwide : wide.fields = .ofColumn name (Pivot.timeColumn (Pivot.distinct times)) ::
      m.entries.map (Pivot.seriesField policy))
    {range : TimeRange} {interval : Span} (haccepts : Accepts range interval.seconds)
    {buckets : List Instant} (hbuckets : grid? range interval.seconds = some buckets) :
    wide.fill wide.schema.timeIndex range interval policy =
      .ok (filled wide 0 policy (Pivot.distinct times) buckets) := by
  have hindex := Frame.timeIndex_of_cons hwide rfl
  have htimes : wide.times 0 = .ok (Pivot.distinct times) := by
    rw [times_eq_ok_iff, hwide]
    rfl
  have hdistinct : (Pivot.distinct times).Pairwise (· ≤ ·) :=
    (Pivot.distinct_pairwise hasc).imp le_of_lt
  have hne : Pivot.distinct times ≠ [] := by
    obtain ⟨time, htime⟩ := List.exists_mem_of_ne_nil _ hrows
    exact List.ne_nil_of_mem (Pivot.mem_distinct.mpr htime)
  have hlength : ∀ g ∈ wide.fields, g.column.length = (Pivot.distinct times).length := by
    rw [hwide]
    intro g hg
    rcases List.mem_cons.mp hg with rfl | hg
    · simp [Field.ofColumn, Pivot.timeColumn, Column.length]
    · obtain ⟨entry, hentry, rfl⟩ := List.mem_map.mp hg
      obtain ⟨v, -, hv⟩ := hm.mem_entries hentry
      rw [hv]
      simp [Pivot.seriesField, Pivot.seriesAfter, SeriesCells.toColumn, Column.length,
        Pivot.slotsAfter]
  rw [hindex, fill_eq_ok_iff htimes hdistinct hne]
  refine ⟨⟨haccepts.width_pos, haccepts.width_le⟩, haccepts.count_le, buckets, hbuckets, ?_, rfl⟩
  intro bucket _ row hrow g hg
  rw [hlength g hg]
  exact (List.getElem?_eq_some_iff.mp (firstRow?_eq_some_iff.mp hrow).1).1

/-- The frame that a long series with its gaps filled gives.  Its first field holds the
buckets of the range.  Every other field is the series of a value field and a label set
that occur together in a row, and has in every bucket the cell it has to. -/
theorem Table.assemble_long (t : Table) (times : List Instant) (policy : FillPolicy)
    (gaps : GapFill) (hlong : (t.toFrame Frame.responseName).IsLong times) (hrows : times ≠ [])
    (hpolicy : gaps.policy = some policy)
    (haccepts : Accepts gaps.range gaps.interval.seconds) :
    ∃ (g : Frame) (time : Field) (series : List Field) (buckets : List Instant),
      t.assemble .timeseries gaps = .ok g ∧ g.fields = time :: series ∧
        time.column = Pivot.timeColumn buckets ∧
        IsGrid gaps.range gaps.interval.seconds buckets ∧
        (series.map Field.key).Nodup ∧
        (∀ key, key ∈ series.map Field.key ↔
          ∃ v ∈ (t.toFrame Frame.responseName).valueFields, ∃ row < times.length,
            key = ⟨v.name, (t.toFrame Frame.responseName).labelSet row⟩) ∧
        ∀ s ∈ series, ∃ v ∈ (t.toFrame Frame.responseName).valueFields, s.name = v.name ∧
          ∃ cells : List v.column.kind.Cell, s.column = ⟨v.column.kind, cells.toArray⟩ ∧
            cells.length = buckets.length ∧
            ∀ (n : Nat) (bucket : Instant) (cell : v.column.kind.Cell),
              buckets[n]? = some bucket → cells[n]? = some cell →
                BucketCell (t.toFrame Frame.responseName) times buckets policy s.labels v.column
                  bucket cell := by
  obtain ⟨wide, name, m, hpivot, hm, hwide⟩ := Frame.pivot_eq hlong policy
  have hassemble := Table.assemble_of_long hlong hrows hpolicy hpivot
  obtain ⟨buckets, hbuckets, hgrid⟩ := haccepts.exists_grid
  rw [Frame.fill_spread hlong.ascend hrows hm hwide haccepts hbuckets] at hassemble
  have hfields : (filled wide 0 policy (Pivot.distinct times) buckets).fields =
      (Field.ofColumn name (Pivot.timeColumn (Pivot.distinct times))).withCells
          (bucketCells 0 policy (Pivot.distinct times) 0 _ none buckets) ::
        Fill.columns (m.entries.map (Pivot.seriesField policy)) fun i g =>
          bucketCells 0 policy (Pivot.distinct times) (i + 1) g none buckets := by
    show Fill.columns wide.fields _ = _
    rw [hwide, columns_cons]
  have hkeys : (Fill.columns (m.entries.map (Pivot.seriesField policy)) fun i g =>
      bucketCells 0 policy (Pivot.distinct times) (i + 1) g none buckets).map Field.key =
        m.keys := by
    rw [columns_key, List.map_map]
    rfl
  refine ⟨_, _, _, buckets, hassemble, hfields, ?_, hgrid, ?_, fun key => ?_, fun s hs => ?_⟩
  · rw [bucketCells_time rfl]
    rfl
  · rw [hkeys]
    exact SortedMap.nodup_keys SeriesKey.lt_irrefl hm.sorted
  · rw [hkeys, hm.mem_keys_iff]
  · obtain ⟨i, hi⟩ := List.getElem?_of_mem hs
    rw [Fill.columns, List.getElem?_mapIdx, List.getElem?_map, Option.map_map,
      Option.map_eq_some_iff] at hi
    obtain ⟨entry, hentry, rfl⟩ := hi
    obtain ⟨v, hv, heq⟩ := hm.mem_entries (List.mem_of_getElem? hentry)
    generalize entry.1.labels = labels at heq
    subst heq
    have hcells := bucketCells_seriesField (t.toFrame Frame.responseName) times buckets policy
      ⟨v.name, labels⟩ v.column i
    refine ⟨v, hv, rfl, gridCells (t.toFrame Frame.responseName) times buckets policy labels
      v.column, ?_, length_gridCells, fun n bucket cell hbucket hcell => ?_⟩
    · exact congrArg (fun cells => Column.mk v.column.kind cells.toArray) hcells
    · exact bucketCell_of_grid hlong.ascend (buckets?_pairwise haccepts.width_pos hbuckets)
        hbucket hcell

/-- The first, the second and the fourth minute of 1970. -/
def minuteTimes : List Instant :=
  [.near 60 0, .near 120 0, .near 120 0, .near 240 0, .near 240 0]

/-- Values of two hosts.  The last value of the first host is null, and the second host
starts late and has two values at its last time. -/
def hosts : Table :=
  ⟨[⟨"time", Pivot.timeColumn minuteTimes⟩,
    ⟨"host", ⟨.string, #[some "a", some "b", some "a", some "b", some "b"]⟩⟩,
    ⟨"value", ⟨.integer, #[some 1, some 7, none, some 8, some 9]⟩⟩]⟩

/-- A range that starts within the first minute and ends within the fifth. -/
def hostGaps (policy : FillPolicy) : GapFill :=
  ⟨⟨.near 61 0, .near 300 5⟩, Span.ofSeconds 60, some policy⟩

/-- The values of the hosts form a long series, and there are five buckets from the first minute
to the fifth. -/
theorem assemble_long_hosts :
    ∃ (g : Frame) (time : Field) (series : List Field) (buckets : List Instant),
      hosts.assemble .timeseries (hostGaps .previous) = .ok g ∧ g.fields = time :: series ∧
        time.column = Pivot.timeColumn buckets ∧
        IsGrid (hostGaps .previous).range 60 buckets ∧ buckets.length = 5 ∧
        (series.map Field.key).Nodup ∧
        ∀ s ∈ series, s.name = "value" ∧
          ∃ cells : List Kind.integer.Cell, s.column = ⟨.integer, cells.toArray⟩ ∧
            cells.length = 5 ∧
            ∀ (n : Nat) (bucket : Instant) (cell : Kind.integer.Cell),
              buckets[n]? = some bucket → cells[n]? = some cell →
                BucketCell (hosts.toFrame Frame.responseName) minuteTimes buckets .previous s.labels
                  ⟨.integer, #[some 1, some 7, none, some 8, some 9]⟩ bucket cell := by
  have hstart : bucketStart (hostGaps .previous).range.start.second 60 = 60 := by decide
  have hstop : (hostGaps .previous).range.stop.second = 300 := rfl
  have hwidth : ((hostGaps .previous).interval.seconds : Int) = 60 := by decide
  have haccepts : Accepts (hostGaps .previous).range (hostGaps .previous).interval.seconds := by
    refine ⟨by decide, by decide, by decide, fun n hn => ?_⟩
    rw [hwidth, hstart, hstop] at hn
    rw [hwidth, hstart]
    exact ⟨⟨60 + n * 60, 0, by omega, by omega, by decide, by omega⟩,
      Instant.ofSecond?_eq_some_iff.mpr ⟨rfl, rfl⟩⟩
  obtain ⟨g, time, series, buckets, hg, hfields, htime, hgrid, hnodup, -, hseries⟩ :=
    Table.assemble_long hosts minuteTimes .previous (hostGaps .previous)
      ⟨rfl, rfl, by decide, by decide, by decide⟩ (by decide) rfl haccepts
  have hcount : buckets.length = 5 := by
    have hfourth := hgrid.lt_length_iff 4
    have hfifth := hgrid.lt_length_iff 5
    rw [hwidth, hstart, hstop] at hfourth hfifth
    omega
  refine ⟨g, time, series, buckets, hg, hfields, htime, hgrid, hcount, hnodup, fun s hs => ?_⟩
  obtain ⟨v, hv, hname, cells, hcolumn, hlength, hcells⟩ := hseries s hs
  obtain rfl := List.mem_singleton.mp hv
  exact ⟨hname, cells, hcolumn, hlength.trans hcount, hcells⟩

example : (hosts.assemble .timeseries (hostGaps .previous)).toOption.map (fun g =>
      g.fields.tail.map Field.column) =
    some [⟨.integer, #[some 1, none, none, none, none]⟩,
      ⟨.integer, #[none, some 7, some 7, some 9, some 9]⟩] := by decide +kernel

end SeriesQuery
