import SeriesQuery.Proofs.Frame.Grid
import SeriesQuery.Proofs.Frame.Writes

/-!
# How filling and spreading can fail

A frame that is filled or spread by its own schema has a field of times where the schema says, and
its fields have one length (`Frame.HasTimes`).  So it fails for its rows, whose times are null or
not in order, or for the range and the width of the buckets (`ConversionError.OfInput`).  There
are two exceptions.  The distance to the end of the range may be no word, which is a fault
(`Frame.fill_eq_overflow_iff`).  And two value fields of one name are spread into the same series,
so if their kinds differ the second does not fit (`Frame.pivot_of_ordered`).
-/

namespace SeriesQuery

/-- An error about the rows of a table or the range that is filled. -/
inductive ConversionError.OfInput : ConversionError → Prop where
  | nullTime (row : Nat) : OfInput (.nullTime row)
  | notSortedByTime : OfInput .notSortedByTime
  | invalidInterval : OfInput .invalidInterval
  | timeOutOfRange (second : Int) : OfInput (.timeOutOfRange second)
  | tooManyBuckets (count : Nat) : OfInput (.tooManyBuckets count)

open ConversionError

/-! ## The field of times -/

/-- A frame that is a series has a field of times where its schema says. -/
theorem Schema.getElem?_timeIndex {kinds : List Kind} (h : (ofKinds kinds).shape ≠ .none) :
    kinds[(ofKinds kinds).timeIndex]? = some .timestamp := by
  unfold ofKinds at h ⊢
  split at h
  next => exact absurd rfl h
  next timeIndex hfind =>
    exact kind_of_findIdx? hfind

namespace Frame

/-- A field of instants, all as long as the others. -/
structure HasTimes (f : Frame) (index length : Nat) : Prop where
  kind : (f.fields[index]?).map Field.kind = some .timestamp
  aligned : ∀ g ∈ f.fields, g.column.length = length

theorem instants_cases (row : Nat) (cells : List Kind.timestamp.Cell) :
    (∃ times, instants row cells = .ok times) ∨ ∃ r, instants row cells = .error (.nullTime r) := by
  induction cells generalizing row with
  | nil => exact .inl ⟨[], rfl⟩
  | cons cell cells ih =>
    cases cell with
    | none => exact .inr ⟨row, rfl⟩
    | some t =>
      rcases ih (row + 1) with ⟨times, h⟩ | ⟨r, h⟩
      · exact .inl ⟨t :: times, by rw [instants, h]⟩
      · exact .inr ⟨r, by rw [instants, h]⟩

theorem times_cases {f : Frame} {index length : Nat} (h : f.HasTimes index length) :
    (∃ times, f.times index = .ok times ∧ times.length = length) ∨
      ∃ row, f.times index = .error (.nullTime row) := by
  obtain ⟨g, hg, hkind⟩ := Option.map_eq_some_iff.mp h.kind
  have hlength := h.aligned g (List.mem_of_getElem? hg)
  obtain ⟨name, labels, ⟨kind, cells⟩⟩ := g
  change kind = .timestamp at hkind
  subst hkind
  rw [times, hg]
  dsimp only [Option.map_some]
  rcases instants_cases 0 cells.toList with ⟨times, htimes⟩ | herror
  · refine .inl ⟨times, htimes, ?_⟩
    have hcells := congrArg List.length (instants_eq_ok_iff.mp htimes)
    rw [List.length_map, Array.length_toList] at hcells
    exact hcells.symm.trans hlength
  · exact .inr herror

end Frame

/-! ## Filling gaps -/

/-- The end of the range is too far from the first bucket, of a width that buckets can have. -/
def GapFill.Overflows (gaps : GapFill) : Prop :=
  ¬ gaps.interval.Unfillable ∧ Fill.Exceeds gaps.range gaps.interval.seconds

instance (gaps : GapFill) : Decidable gaps.Overflows := inferInstanceAs (Decidable (_ ∧ _))

namespace Frame

section Filling

variable {f : Frame} {index length : Nat} {range : TimeRange} {interval : Span}
  {policy : FillPolicy} {e : ConversionError}

/-- If the numbers of the buckets are words, filling fails for the times, for the number of the
buckets or for where they start. -/
theorem fill_eq_error (h : f.HasTimes index length) (hwidth : ¬ interval.Unfillable)
    (hfits : ¬ Fill.Exceeds range interval.seconds)
    (herror : f.fill index range interval policy = .error e) : e.OfInput ∧ e ≠ .invalidInterval := by
  have hfill := herror
  rw [fill_eq, if_neg hwidth, if_neg hfits, fillBuckets] at herror
  split at herror
  next =>
    cases herror
    exact ⟨.tooManyBuckets _, fun h => by cases h⟩
  next hcount =>
    rcases times_cases h with ⟨times, htimes, hlength⟩ | ⟨row, hnull⟩
    · rw [htimes] at herror
      dsimp only at herror
      split at herror
      next =>
        cases herror
        exact ⟨.notSortedByTime, fun h => by cases h⟩
      next hasc =>
        cases times with
        | nil => cases herror
        | cons t ts =>
          have hle : (t :: ts).Pairwise (· ≤ ·) := timesAscend_iff.mp (by simpa using hasc)
          rw [fill_eq_grid htimes hle (List.cons_ne_nil t ts)
            fun g hg => (h.aligned g hg).trans hlength.symm, Fill.grid, if_neg hwidth,
            if_neg hfits, if_neg hcount] at hfill
          rcases Fill.starts_cases interval.seconds _ _ with
            ⟨buckets, hstarts⟩ | ⟨second, hstarts⟩
          · rw [hstarts] at hfill
            cases hfill
          · rw [hstarts] at hfill
            cases hfill
            exact ⟨.timeOutOfRange second, fun h => by cases h⟩
    · rw [hnull] at herror
      cases herror
      exact ⟨.nullTime row, fun h => by cases h⟩

theorem fill_eq_invalidInterval_iff (h : f.HasTimes index length) :
    f.fill index range interval policy = .error .invalidInterval ↔ interval.Unfillable := by
  constructor
  · intro herror
    by_contra hwidth
    by_cases hfits : Fill.Exceeds range interval.seconds
    · rw [fill_eq, if_neg hwidth, if_pos hfits] at herror
      cases herror
    · exact (fill_eq_error h hwidth hfits herror).2 rfl
  · intro hwidth
    rw [fill_eq, if_pos hwidth]

theorem fill_eq_overflow_iff (h : f.HasTimes index length) {operation : Word.Operation} :
    f.fill index range interval policy = .error (.overflow operation) ↔
      operation = .subtract ∧ ¬ interval.Unfillable ∧ Fill.Exceeds range interval.seconds := by
  constructor
  · intro herror
    by_cases hwidth : interval.Unfillable
    · rw [fill_eq, if_pos hwidth] at herror
      cases herror
    · by_cases hfits : Fill.Exceeds range interval.seconds
      · rw [fill_eq, if_neg hwidth, if_pos hfits] at herror
        cases herror
        exact ⟨rfl, hwidth, hfits⟩
      · cases (fill_eq_error h hwidth hfits herror).1
  · rintro ⟨rfl, hwidth, hfits⟩
    rw [fill_eq, if_neg hwidth, if_pos hfits]

variable {gaps : GapFill}

theorem fillGaps_eq_invalidInterval_iff (h : f.HasTimes f.schema.timeIndex length) :
    f.fillGaps gaps = .error .invalidInterval ↔
      gaps.policy ≠ none ∧ gaps.interval.Unfillable := by
  rw [fillGaps]
  cases gaps.policy with
  | none => simp
  | some policy =>
    dsimp only
    rw [fill_eq_invalidInterval_iff h]
    simp

theorem fillGaps_eq_overflow_iff (h : f.HasTimes f.schema.timeIndex length)
    {operation : Word.Operation} :
    f.fillGaps gaps = .error (.overflow operation) ↔
      operation = .subtract ∧ gaps.policy ≠ none ∧ gaps.Overflows := by
  rw [fillGaps]
  cases gaps.policy with
  | none => simp
  | some policy =>
    dsimp only
    rw [fill_eq_overflow_iff h]
    simp [GapFill.Overflows]

/-- Filling gaps fails for the rows or for the range, or has the fault. -/
theorem fillGaps_eq_error (h : f.HasTimes f.schema.timeIndex length)
    (herror : f.fillGaps gaps = .error e) : e.OfInput ∨ e = .overflow .subtract := by
  rw [fillGaps] at herror
  split at herror
  next => cases herror
  next policy _ =>
    by_cases hwidth : gaps.interval.Unfillable
    · rw [fill_eq, if_pos hwidth] at herror
      cases herror
      exact .inl .invalidInterval
    · by_cases hfits : Fill.Exceeds gaps.range gaps.interval.seconds
      · rw [fill_eq, if_neg hwidth, if_pos hfits] at herror
        cases herror
        exact .inr rfl
      · exact .inl (fill_eq_error h hwidth hfits herror).1

end Filling

/-! ## Spreading -/

open Pivot

/-- Value fields of one name that are of different kinds. -/
def Clashes (f : Frame) : Prop :=
  ∃ g ∈ f.valueFields, ∃ g' ∈ f.valueFields, g'.name = g.name ∧ g'.kind ≠ g.kind

/-- A spread frame has a field of times, all as long as the others. -/
theorem hasTimes_of_holds {f wide : Frame} {times : List Instant} {name : String}
    {m : SeriesMap} {policy : FillPolicy}
    (hm : Holds (distinct times).length (f.writes times) m)
    (hwide : wide.fields = .ofColumn name (timeColumn (distinct times)) ::
      m.entries.map (seriesField policy)) :
    wide.HasTimes wide.schema.timeIndex (distinct times).length := by
  have hindex := Frame.timeIndex_of_cons hwide rfl
  refine ⟨by rw [hindex, hwide]; rfl, ?_⟩
  intro g hg
  rw [hwide] at hg
  rcases List.mem_cons.mp hg with rfl | hg
  · simp [Field.ofColumn, timeColumn, Column.length]
  · obtain ⟨⟨key, s⟩, hentry, rfl⟩ := List.mem_map.mp hg
    have hfind := (SortedMap.mem_entries_iff SeriesKey.lt_irrefl hm.sorted).mp hentry
    rw [← (hm.only key s hfind).1]
    simp [seriesField, SeriesCells.toColumn, Column.length]

theorem mem_valueFields {f : Frame} {g : Field} :
    g ∈ f.valueFields ↔ ∃ i ∈ f.schema.valueIndices, f.fields[i]? = some g :=
  List.mem_filterMap

/-- Fields clash exactly if two writes of different kinds go to one series. -/
theorem clashes_iff {f : Frame} {times : List Instant} (hne : times ≠ []) :
    f.Clashes ↔ ∃ w ∈ f.writes times, ∃ w' ∈ f.writes times, w'.key = w.key ∧
      w'.field.kind ≠ w.field.kind := by
  have hrow : 0 < times.length := List.length_pos_iff.mpr hne
  constructor
  · rintro ⟨g, hg, g', hg', hname, hkind⟩
    obtain ⟨i, hi, hgi⟩ := mem_valueFields.mp hg
    obtain ⟨j, hj, hgj⟩ := mem_valueFields.mp hg'
    obtain ⟨w, hw, rfl, hrowEq⟩ := exists_write hi hrow
    obtain ⟨w', hw', rfl, hrowEq'⟩ := exists_write hj hrow
    obtain ⟨-, hfield, hlabels, -⟩ := mem_writes.mp hw
    obtain ⟨-, hfield', hlabels', -⟩ := mem_writes.mp hw'
    cases hgi.symm.trans hfield
    cases hgj.symm.trans hfield'
    refine ⟨w, hw, w', hw', ?_, hkind⟩
    rw [Write.key, Write.key, hname, hlabels, hlabels', hrowEq, hrowEq']
  · rintro ⟨w, hw, w', hw', hkey, hkind⟩
    obtain ⟨hi, hg, -⟩ := mem_writes.mp hw
    obtain ⟨hj, hg', -⟩ := mem_writes.mp hw'
    exact ⟨w.field, mem_valueFields.mpr ⟨w.index, hi, hg⟩, w'.field,
      mem_valueFields.mpr ⟨w'.index, hj, hg'⟩, (SeriesKey.mk.inj hkey).1, hkind⟩

/-- Spreading an ordered frame ends at the first clash, or gives a frame with a field of
times. -/
theorem pivot_of_ordered {f : Frame} {times : List Instant} (h : f.Ordered times)
    (hne : times ≠ []) (policy : FillPolicy) :
    (¬ f.Clashes ∧ ∃ wide length, f.pivot f.schema policy = .ok wide ∧
        wide.HasTimes wide.schema.timeIndex length) ∨
      f.Clashes ∧ ∃ expected found,
        f.pivot f.schema policy = .error (.kindMismatch expected found) := by
  rw [clashes_iff hne]
  rcases f.pivot_cases h policy with
    ⟨wide, name, m, hpivot, hm, hwide⟩ | ⟨w, hw, w', hw', hkey, hkind, hpivot⟩
  · left
    refine ⟨?_, wide, _, hpivot, hasTimes_of_holds hm hwide⟩
    rintro ⟨w, hw, w', hw', hkey, hkind⟩
    exact hkind (hm.kind_eq hw hw' hkey)
  · right
    exact ⟨⟨w, hw, w', hw', hkey, hkind⟩, _, _, hpivot⟩

theorem hasTimes_of_timeColumn {f : Frame} {index : Nat} {times : List Instant}
    (htime : (f.fields[index]?).map Field.column = some (timeColumn times))
    (haligned : ∀ g ∈ f.fields, g.column.length = times.length) :
    f.HasTimes index times.length := by
  obtain ⟨g, hg, hcolumn⟩ := Option.map_eq_some_iff.mp htime
  exact ⟨by rw [hg, Option.map_some, Field.kind, hcolumn]; rfl, haligned⟩

theorem Ordered.hasTimes {f : Frame} {times : List Instant} (h : f.Ordered times) :
    f.HasTimes f.schema.timeIndex times.length := hasTimes_of_timeColumn h.time h.aligned

theorem Ordered.of_times {f : Frame} {times : List Instant} {length : Nat}
    (hshape : f.schema.shape = .long) (h : f.HasTimes f.schema.timeIndex length)
    (htimes : f.times f.schema.timeIndex = .ok times) (hlength : times.length = length)
    (hasc : timesAscend times = true) : f.Ordered times :=
  ⟨hshape, times_eq_ok_iff.mp htimes, fun g hg => (h.aligned g hg).trans hlength.symm,
    timesAscend_iff.mp hasc⟩

/-- Spreading a long frame fails for its times, or else the frame is ordered. -/
theorem pivot_cases_of_long {f : Frame} {length : Nat} (hshape : f.schema.shape = .long)
    (h : f.HasTimes f.schema.timeIndex length) (policy : FillPolicy) :
    (∃ e, f.pivot f.schema policy = .error e ∧ e.OfInput ∧ e ≠ .invalidInterval ∧
        ∀ times, ¬ f.Ordered times) ∨
      ∃ times, f.Ordered times ∧ times.length = length := by
  rcases times_cases h with ⟨times, htimes, hlength⟩ | ⟨row, hnull⟩
  · by_cases hasc : timesAscend times = true
    · exact .inr ⟨times, .of_times hshape h htimes hlength hasc, hlength⟩
    · left
      refine ⟨.notSortedByTime, ?_, .notSortedByTime, nofun, ?_⟩
      · simp [pivot, hshape, htimes, hasc]
      · intro times' hordered
        rw [times_eq_ok_iff.mpr hordered.time, Except.ok.injEq] at htimes
        exact hasc (timesAscend_iff.mpr (htimes ▸ hordered.ascend))
  · left
    refine ⟨.nullTime row, ?_, .nullTime row, nofun, ?_⟩
    · simp [pivot, hshape, hnull]
    · intro times hordered
      rw [times_eq_ok_iff.mpr hordered.time] at hnull
      cases hnull

theorem HasTimes.rowCount_eq {f : Frame} {index length : Nat} (h : f.HasTimes index length) :
    f.rowCount = length := by
  obtain ⟨g, hg, -⟩ := Option.map_eq_some_iff.mp h.kind
  rw [rowCount]
  cases hfields : f.fields with
  | nil =>
    rw [hfields] at hg
    cases hg
  | cons g' fields => exact h.aligned g' (hfields ▸ List.mem_cons_self)

end Frame

end SeriesQuery
