import SeriesQuery.Proofs.Frame.Failures
import SeriesQuery.Proofs.Result.Reading

/-!
# How the frame of a table can fail

The columns of a table that was read from a result have one length.  A frame is made of them in
one of four ways (`Table.Course`): they stay as they are, the rows of a long series are not in
order, two of its value columns clash, or there is a wide series, whose gaps may be filled.

So the frame fails for its rows or for the range and the width of the buckets, and of the errors
about how frames are built there is one that a table can give (`Table.assemble_errors`).  A width
that buckets cannot have, and a range whose end is too far from the first bucket, matter exactly
if the table is put on buckets (`Table.Fills`).
-/

namespace SeriesQuery

namespace Table

/-! ## From a result to a frame -/

/-- The columns of a table that was read are as long as there are rows. -/
theorem length_of_ofResult {result : ResultSet} {t : Table} (h : ofResult result = .ok t) :
    ∀ c ∈ t.columns, c.column.length = result.cursor.pending.length := by
  intro c hc
  obtain ⟨hcount, hholds⟩ := ofRows_holds (ofResult_eq_ok_iff.mp h).1
  obtain ⟨j, hj⟩ := List.getElem?_of_mem hc
  have hlt : j < result.columns.length := hcount ▸ (List.getElem?_eq_some_iff.mp hj).1
  obtain ⟨c', hc', hcolumn⟩ := hholds j _ (List.getElem?_eq_getElem hlt)
  cases hj.symm.trans hc'
  exact hcolumn.length

theorem hasTimes_toFrame {t : Table} (name : String) {length : Nat}
    (h : ∀ c ∈ t.columns, c.column.length = length)
    (hshape : (t.toFrame name).schema.shape ≠ .none) :
    (t.toFrame name).HasTimes (t.toFrame name).schema.timeIndex length := by
  refine ⟨?_, ?_⟩
  · have hkind := Schema.getElem?_timeIndex hshape
    rwa [List.getElem?_map] at hkind
  · intro g hg
    obtain ⟨c, hc, rfl⟩ := List.mem_map.mp hg
    exact h c hc

theorem rowCount_toFrame (t : Table) (name : String) : (t.toFrame name).rowCount = t.rowCount := by
  rw [Frame.rowCount, toFrame, List.head?_map, Option.map_map]
  rfl

/-- A table whose columns are as long as its times has as many rows. -/
theorem rowCount_of_times {t : Table} {name : String} {times : List Instant}
    (htime : ((t.toFrame name).fields[(t.toFrame name).schema.timeIndex]?).map Field.column =
      some (Pivot.timeColumn times))
    (haligned : ∀ g ∈ (t.toFrame name).fields, g.column.length = times.length) :
    t.rowCount = times.length := by
  rw [← rowCount_toFrame t name, (Frame.hasTimes_of_timeColumn htime haligned).rowCount_eq]

/-- Without rows, or without times and numbers, the columns stay as they are. -/
theorem assemble_of_plain {t : Table}
    (h : t.rowCount = 0 ∨ (t.toFrame Frame.responseName).schema.shape = .none) (gaps : GapFill) :
    t.assemble .timeseries gaps = .ok (t.toFrame Frame.responseName) := by
  rw [assemble, rowCount_toFrame]
  by_cases hrows : t.rowCount = 0
  · exact if_pos (.inl hrows)
  · rw [if_neg (by simp [hrows]), h.resolve_left hrows]

/-- The rows of a wide series go into the buckets as they are. -/
theorem assemble_of_wide {t : Table} (hrows : t.rowCount ≠ 0)
    (hshape : (t.toFrame Frame.responseName).schema.shape = .wide) (gaps : GapFill) :
    t.assemble .timeseries gaps = (t.toFrame Frame.responseName).fillGaps gaps := by
  rw [assemble, rowCount_toFrame, if_neg (by simp [hrows]), hshape]

/-- Those of a long series are spread before. -/
theorem assemble_of_spread {t : Table} (hrows : t.rowCount ≠ 0)
    (hshape : (t.toFrame Frame.responseName).schema.shape = .long) (gaps : GapFill) :
    t.assemble .timeseries gaps =
      ((t.toFrame Frame.responseName).pivot (t.toFrame Frame.responseName).schema
        (gaps.policy.getD .null)).bind fun wide => wide.fillGaps gaps := by
  rw [assemble, rowCount_toFrame, if_neg (by simp [hrows]), hshape]
  dsimp only
  cases (t.toFrame Frame.responseName).pivot _ _ <;> rfl

/-! ## The course of assembling -/

/-- Value columns of a table clash when it is read as time series: there are rows, their
times are in order, and two of the columns have the same name but not the same kind. -/
structure Clashes (t : Table) (format : DataFormat) : Prop where
  format : format = .timeseries
  kinds : (t.toFrame Frame.responseName).Clashes
  ordered : ∃ times, times ≠ [] ∧ (t.toFrame Frame.responseName).Ordered times

/-- A table is put on buckets: it is read as time series, a policy was asked for, and there are
rows that are a wide series or can be spread. -/
structure Fills (t : Table) (format : DataFormat) (gaps : GapFill) : Prop where
  format : format = .timeseries
  policy : gaps.policy ≠ none
  rows : t.rowCount ≠ 0
  series : (t.toFrame Frame.responseName).schema.shape = .wide ∨
    (t.toFrame Frame.responseName).schema.shape = .long ∧
      ∃ wide, (t.toFrame Frame.responseName).pivot (t.toFrame Frame.responseName).schema
        (gaps.policy.getD .null) = .ok wide

/-- How the assembling of a table goes, and what comes of it. -/
inductive Course (t : Table) (format : DataFormat) (gaps : GapFill) :
    Except ConversionError Frame → Prop where
  /-- The columns stay as they are. -/
  | plain {frame : Frame} (fills : ¬ t.Fills format gaps) (clashes : ¬ t.Clashes format) :
      Course t format gaps (.ok frame)
  /-- The times of a long series have nulls or are not in order. -/
  | unordered {e : ConversionError} (fills : ¬ t.Fills format gaps)
      (clashes : ¬ t.Clashes format) (input : e.OfInput) (width : e ≠ .invalidInterval) :
      Course t format gaps (.error e)
  /-- Value columns of a long series clash. -/
  | clash {expected found : Kind} (fills : ¬ t.Fills format gaps) (clashes : t.Clashes format) :
      Course t format gaps (.error (.kindMismatch expected found))
  /-- There is a wide series, whose gaps are filled if a policy was asked for. -/
  | series {wide : Frame} {length : Nat} (fills : t.Fills format gaps ↔ gaps.policy ≠ none)
      (clashes : ¬ t.Clashes format) (times : wide.HasTimes wide.schema.timeIndex length) :
      Course t format gaps (wide.fillGaps gaps)

theorem not_clashes_of_shape {t : Table} {format : DataFormat}
    (h : (t.toFrame Frame.responseName).schema.shape ≠ .long) : ¬ t.Clashes format := by
  rintro ⟨-, -, times, -, hordered⟩
  exact h hordered.shape

variable {t : Table} {length : Nat} {format : DataFormat} {gaps : GapFill}

/-- A long series is spread, or not for its times or for a clash. -/
theorem course_of_long (haligned : ∀ c ∈ t.columns, c.column.length = length)
    (hrows : t.rowCount ≠ 0) (hlong : (t.toFrame Frame.responseName).schema.shape = .long) :
    t.Course .timeseries gaps (t.assemble .timeseries gaps) := by
  have htimes := hasTimes_toFrame Frame.responseName haligned (by rw [hlong]; decide)
  have hfills : ∀ {e}, (t.toFrame Frame.responseName).pivot
      (t.toFrame Frame.responseName).schema (gaps.policy.getD .null) = .error e →
        ¬ t.Fills .timeseries gaps := by
    rintro e hpivot ⟨-, -, -, hwide | ⟨-, wide, hok⟩⟩
    · cases hlong.symm.trans hwide
    · cases hpivot.symm.trans hok
  rw [assemble_of_spread hrows hlong]
  rcases Frame.pivot_cases_of_long hlong htimes (gaps.policy.getD .null) with
    ⟨e, hpivot, hinput, hne, hnot⟩ | ⟨times, hordered, hlength⟩
  · rw [hpivot]
    refine .unordered (hfills hpivot) (fun hclash => ?_) hinput hne
    obtain ⟨times, -, hordered⟩ := hclash.ordered
    exact hnot times hordered
  · have hne : times ≠ [] := by
      rintro rfl
      rw [← rowCount_toFrame t Frame.responseName, htimes.rowCount_eq, ← hlength] at hrows
      exact hrows rfl
    rcases Frame.pivot_of_ordered hordered hne (gaps.policy.getD .null) with
      ⟨hkinds, wide, length', hpivot, hwide⟩ | ⟨hkinds, expected, found, hpivot⟩
    · rw [hpivot]
      refine .series ⟨fun h => h.policy, fun hpolicy => ?_⟩ (fun hclash => hkinds hclash.kinds) hwide
      exact ⟨rfl, hpolicy, hrows, .inr ⟨hlong, wide, hpivot⟩⟩
    · rw [hpivot]
      exact .clash (hfills hpivot) ⟨rfl, hkinds, times, hne, hordered⟩

/-- The assembling of a table whose columns have one length takes one of the courses. -/
theorem assemble_course (haligned : ∀ c ∈ t.columns, c.column.length = length)
    (format : DataFormat) (gaps : GapFill) : t.Course format gaps (t.assemble format gaps) := by
  by_cases hformat : format = .timeseries
  swap
  · rw [assemble, if_pos (.inr hformat)]
    exact .plain (fun h => hformat h.format) fun h => hformat h.format
  subst hformat
  by_cases hrows : t.rowCount = 0
  · rw [assemble_of_plain (.inl hrows)]
    refine .plain (fun h => h.rows hrows) fun hclash => ?_
    obtain ⟨times, hne, hordered⟩ := hclash.ordered
    rw [← rowCount_toFrame t Frame.responseName, hordered.hasTimes.rowCount_eq] at hrows
    exact hne (List.eq_nil_of_length_eq_zero hrows)
  cases hshape : (t.toFrame Frame.responseName).schema.shape with
  | none =>
    rw [assemble_of_plain (.inr hshape)]
    refine .plain ?_ (not_clashes_of_shape (by rw [hshape]; decide))
    rintro ⟨-, -, -, hwide | ⟨hlong, -⟩⟩
    · cases hshape.symm.trans hwide
    · cases hshape.symm.trans hlong
  | wide =>
    have htimes := hasTimes_toFrame Frame.responseName haligned (by rw [hshape]; decide)
    rw [assemble_of_wide hrows hshape]
    exact .series ⟨fun h => h.policy, fun hpolicy => ⟨rfl, hpolicy, hrows, .inl hshape⟩⟩
      (not_clashes_of_shape (by rw [hshape]; decide)) htimes
  | long => exact course_of_long haligned hrows hshape

namespace Course

variable {r : Except ConversionError Frame}

/-- Assembling fails for the rows or for the range, for a clash, or it has the fault. -/
theorem errors (h : t.Course format gaps r) {e : ConversionError} (he : r = .error e) :
    e.OfInput ∨ (∃ expected found, e = .kindMismatch expected found) ∨ e = .overflow .subtract := by
  cases h with
  | plain => cases he
  | unordered _ _ hinput =>
    cases he
    exact .inl hinput
  | clash =>
    cases he
    exact .inr (.inl ⟨_, _, rfl⟩)
  | series _ _ htimes => exact (Frame.fillGaps_eq_error htimes he).imp_right .inr

theorem kindMismatch_iff (h : t.Course format gaps r) :
    (∃ expected found, r = .error (.kindMismatch expected found)) ↔ t.Clashes format := by
  cases h with
  | plain _ hclash => exact ⟨(fun ⟨_, _, he⟩ => by cases he), fun h => absurd h hclash⟩
  | unordered _ hclash hinput =>
    refine ⟨fun ⟨_, _, he⟩ => ?_, fun h => absurd h hclash⟩
    cases he
    cases hinput
  | clash _ hclash => exact ⟨fun _ => hclash, fun _ => ⟨_, _, rfl⟩⟩
  | series _ hclash htimes =>
    refine ⟨fun ⟨_, _, he⟩ => ?_, fun h => absurd h hclash⟩
    rcases Frame.fillGaps_eq_error htimes he with hinput | hfault
    · cases hinput
    · cases hfault

theorem invalidInterval_iff (h : t.Course format gaps r) :
    r = .error .invalidInterval ↔ t.Fills format gaps ∧ gaps.interval.Unfillable := by
  cases h with
  | plain hfills => exact ⟨(fun he => by cases he), fun h => absurd h.1 hfills⟩
  | unordered hfills _ _ hne =>
    exact ⟨fun he => absurd (Except.error.inj he) hne, fun h => absurd h.1 hfills⟩
  | clash hfills => exact ⟨(fun he => by cases he), fun h => absurd h.1 hfills⟩
  | series hfills _ htimes => rw [Frame.fillGaps_eq_invalidInterval_iff htimes, hfills]

theorem overflow_iff (h : t.Course format gaps r) {operation : Word.Operation} :
    r = .error (.overflow operation) ↔
      operation = .subtract ∧ t.Fills format gaps ∧ gaps.Overflows := by
  cases h with
  | plain hfills => exact ⟨(fun he => by cases he), fun h => absurd h.2.1 hfills⟩
  | unordered hfills _ hinput =>
    refine ⟨fun he => ?_, fun h => absurd h.2.1 hfills⟩
    cases he
    cases hinput
  | clash hfills => exact ⟨(fun he => by cases he), fun h => absurd h.2.1 hfills⟩
  | series hfills _ htimes => rw [Frame.fillGaps_eq_overflow_iff htimes, hfills]

end Course

/-! ## What a table can fail for -/

/-- A table that was read from a result fails to give a frame for its rows or for the range,
or else because value columns clash.  That the distance to the end of the range is no word is a
fault, and it comes to light exactly if the table is put on buckets. -/
theorem assemble_errors (result : ResultSet) (t : Table) (format : DataFormat) (gaps : GapFill)
    (h : ofResult result = .ok t) :
    (∀ e, t.assemble format gaps = .error e →
      e.OfInput ∨ (∃ expected found, e = .kindMismatch expected found) ∨ e = .overflow .subtract) ∧
    ((∃ expected found, t.assemble format gaps = .error (.kindMismatch expected found)) ↔
      t.Clashes format) ∧
    (t.assemble format gaps = .error (.overflow .subtract) ↔
      t.Fills format gaps ∧ gaps.Overflows) := by
  have hcourse := assemble_course (length_of_ofResult h) format gaps
  refine ⟨fun e => hcourse.errors, hcourse.kindMismatch_iff, ?_⟩
  rw [hcourse.overflow_iff]
  exact and_iff_right rfl

/-- One row of a host with two values of one name, of which the second has another kind. -/
def mixed : ResultSet :=
  ⟨[⟨"time", .kind .timestamp⟩, ⟨"host", .kind .string⟩, ⟨"value", .kind .integer⟩,
      ⟨"value", .kind .float⟩],
    ⟨[[.timestamp (.near 0 0), .string "a", .int 1, .int 2]], none⟩⟩

/-- The range of one second. -/
def oneSecond : GapFill := ⟨⟨.near 0 0, .near 0 0⟩, Span.ofSeconds 1, none⟩

theorem assemble_errors_mixed : ∃ t, ofResult mixed = .ok t ∧ t.Clashes .timeseries := by
  obtain ⟨t, ht⟩ : ∃ t, ofResult mixed = .ok t := ⟨_, rfl⟩
  refine ⟨t, ht, (assemble_errors mixed t .timeseries oneSecond ht).2.1.mp ⟨.integer, .float, ?_⟩⟩
  cases ht
  rfl

/-- The second value does not fit the series of the first. -/
theorem assemble_mixed_kindMismatch : ∃ t, ofResult mixed = .ok t ∧
    t.assemble .timeseries oneSecond = .error (.kindMismatch .integer .float) :=
  ⟨_, rfl, rfl⟩

end Table

end SeriesQuery
