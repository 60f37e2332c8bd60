import SeriesQuery.Proofs.Frame.Assembled

/-!
# The shape of an assembled frame

A table without rows, and one whose rows form no series, become the frame of their columns.
Every other table that is assembled as time series becomes a wide series (`Frame.IsSeries`).
Spreading a long series leaves a field of times and fields of values, of which one is numeric
because a value field of the source was (`isSeries_of_pivot`).  Filling the gaps changes no
kinds, so a wide frame is wide after it (`isSeries_of_fill`).

Both also leave times that ascend strictly, without nulls (`Frame.Ticks`): the distinct times
of the rows, or the starts of the buckets, of which there may be none.
-/

namespace SeriesQuery

namespace Schema

theorem indicesOf_eq_nil_iff {p : Kind → Bool} {except : Nat} {kinds : List Kind} :
    indicesOf p except kinds = [] ↔
      ∀ i k, kinds[i]? = some k → i ≠ except → p k = false := by
  rw [List.eq_nil_iff_forall_not_mem]
  constructor
  · intro h i k hk hne
    exact Bool.eq_false_iff.mpr fun hp => h i (mem_indicesOf.mpr ⟨k, hk, hne, hp⟩)
  · intro h i hi
    obtain ⟨k, hk, hne, hp⟩ := mem_indicesOf.mp hi
    rw [h i k hk hne] at hp
    cases hp

/-- Fields are a wide series if there are times and numbers, and no texts and truth values. -/
theorem shape_eq_wide_iff {kinds : List Kind} :
    (ofKinds kinds).shape = .wide ↔
      .timestamp ∈ kinds ∧ (∃ k ∈ kinds, k.isNumeric = true) ∧
        ∀ k ∈ kinds, isLabelKind k = false := by
  rw [ofKinds]
  cases hfind : kinds.findIdx? (· == .timestamp) with
  | none =>
    constructor
    · intro h
      cases h
    · rintro ⟨htime, -⟩
      cases List.findIdx?_eq_none_iff.mp hfind _ htime
  | some timeIndex =>
    have hkind := kind_of_findIdx? hfind
    have hlabels : indicesOf isLabelKind timeIndex kinds = [] ↔
        ∀ k ∈ kinds, isLabelKind k = false := by
      rw [indicesOf_eq_nil_iff]
      constructor
      · intro h k hk
        obtain ⟨i, hi⟩ := List.getElem?_of_mem hk
        by_cases hne : i = timeIndex
        · -- The field of times is no label itself.
          rw [hne, hkind, Option.some.injEq] at hi
          rw [← hi]
          rfl
        · exact h i k hi hne
      · exact fun h i k hk _ => h k (List.mem_of_getElem? hk)
    rw [← hlabels, ← List.any_eq_true]
    show (if _ then if _ then SeriesShape.wide else .long else .none) = SeriesShape.wide ↔ _
    constructor
    · intro h
      split at h
      next hany =>
        split at h
        next hnil => exact ⟨List.mem_of_getElem? hkind, hany, hnil⟩
        next => cases h
      next => cases h
    · rintro ⟨-, hany, hnil⟩
      rw [if_pos hany, if_pos hnil]

/-- Fields are a series if there are times and numbers. -/
theorem shape_ne_none_iff {kinds : List Kind} :
    (ofKinds kinds).shape ≠ .none ↔ .timestamp ∈ kinds ∧ ∃ k ∈ kinds, k.isNumeric = true := by
  rw [ofKinds]
  cases hfind : kinds.findIdx? (· == .timestamp) with
  | none =>
    refine ⟨fun h => absurd rfl h, fun h => ?_⟩
    cases List.findIdx?_eq_none_iff.mp hfind _ h.1
  | some timeIndex =>
    have hmem := List.mem_of_getElem? (kind_of_findIdx? hfind)
    rw [← List.any_eq_true]
    dsimp only
    by_cases hany : kinds.any Kind.isNumeric = true
    · rw [if_pos hany]
      refine ⟨fun _ => ⟨hmem, hany⟩, fun _ => ?_⟩
      split <;> exact fun he => by cases he
    · rw [if_neg hany]
      exact ⟨fun h => absurd rfl h, fun h => absurd h.2 hany⟩

/-- They are a long series if there are texts or truth values as well. -/
theorem shape_eq_long_iff {kinds : List Kind} :
    (ofKinds kinds).shape = .long ↔
      .timestamp ∈ kinds ∧ (∃ k ∈ kinds, k.isNumeric = true) ∧
        ∃ k ∈ kinds, isLabelKind k = true := by
  constructor
  · intro h
    obtain ⟨htime, hnumeric⟩ := shape_ne_none_iff.mp (h ▸ nofun : (ofKinds kinds).shape ≠ .none)
    refine ⟨htime, hnumeric, ?_⟩
    by_contra hno
    have hnot : ∀ k ∈ kinds, isLabelKind k = false := fun k hk =>
      Bool.eq_false_iff.mpr fun hlabel => hno ⟨k, hk, hlabel⟩
    cases h.symm.trans (shape_eq_wide_iff.mpr ⟨htime, hnumeric, hnot⟩)
  · rintro ⟨htime, hnumeric, k, hk, hlabel⟩
    cases hshape : (ofKinds kinds).shape with
    | none => exact absurd hshape (shape_ne_none_iff.mpr ⟨htime, hnumeric⟩)
    | long => rfl
    | wide => cases hlabel.symm.trans ((shape_eq_wide_iff.mp hshape).2.2 k hk)

end Schema

namespace Frame

/-- A wide series whose fields are all of one length. -/
structure IsSeries (f : Frame) (length : Nat) : Prop where
  wide : f.schema.shape = .wide
  aligned : ∀ g ∈ f.fields, g.column.length = length

/-- The first field of instants has no nulls and ascends strictly. -/
def Ticks (f : Frame) : Prop :=
  ∃ time times, f.fields.find? (fun g => g.kind == .timestamp) = some time ∧
    time.column = Pivot.timeColumn times ∧ times.Pairwise (· < ·)

/-- The schema of a series names its first field of instants. -/
theorem find?_time {f : Frame} (h : f.schema.shape ≠ .none) :
    f.fields.find? (fun g => g.kind == .timestamp) = f.fields[f.schema.timeIndex]? := by
  have hsame : f.fields.findIdx? (fun g => g.kind == .timestamp) =
      (f.fields.map Field.kind).findIdx? (· == .timestamp) := by
    rw [List.findIdx?_map]
    rfl
  rw [List.find?_eq_bind_findIdx?_getElem?, hsame]
  rw [schema, Schema.ofKinds] at h ⊢
  cases hfind : (f.fields.map Field.kind).findIdx? (· == .timestamp) with
  | none =>
    rw [hfind] at h
    exact absurd rfl h
  | some timeIndex => rfl

theorem ticks_of_timeColumn {f : Frame} (hwide : f.schema.shape = .wide) {times : List Instant}
    (htime : (f.fields[f.schema.timeIndex]?).map Field.column = some (Pivot.timeColumn times))
    (hasc : times.Pairwise (· < ·)) : f.Ticks := by
  have hshape : f.schema.shape ≠ .none := by
    rw [hwide]
    decide
  obtain ⟨time, hget, hcolumn⟩ := Option.map_eq_some_iff.mp htime
  exact ⟨time, times, (find?_time hshape).trans hget, hcolumn, hasc⟩

/-! ## Filling -/

open Fill

theorem length_bucketCells (timeIndex : Nat) (policy : FillPolicy) (times : List Instant)
    (index : Nat) (g : Field) (previous : g.column.kind.Cell) (buckets : List Instant) :
    (bucketCells timeIndex policy times index g previous buckets).length = buckets.length := by
  induction buckets generalizing previous with
  | nil => rfl
  | cons bucket buckets ih => rw [bucketCells, List.length_cons, ih, List.length_cons]

/-- Filling reads times and puts the fields on the buckets of the range, or on none if there are
no rows. -/
theorem fill_cases {f g : Frame} {timeIndex : Nat} {range : TimeRange} {interval : Span}
    {policy : FillPolicy} (h : f.fill timeIndex range interval policy = .ok g) :
    (0 < (interval.seconds : Int) ∧ (interval.seconds : Int) ≤ Digits.maxInt64) ∧
      ¬ Exceeds range interval.seconds ∧
      bucketCount (bucketStart range.start.second interval.seconds) range.stop.second
        interval.seconds ≤ maxBuckets ∧
      ∃ times buckets, f.times timeIndex = .ok times ∧
        g = filled f timeIndex policy times buckets ∧
          (buckets = [] ∨ grid? range interval.seconds = some buckets) := by
  have hfill := h
  rw [fill_eq] at h
  split at h
  next => cases h
  next hwidth =>
    obtain ⟨hpos, hle⟩ := not_or.mp hwidth
    split at h
    next => cases h
    next hfits =>
      rw [fillBuckets] at h
      split at h
      next => cases h
      next hcount =>
        refine ⟨⟨Int.not_le.mp hpos, Int.not_lt.mp hle⟩, hfits, Nat.not_lt.mp hcount, ?_⟩
        split at h
        next => cases h
        next times htimes =>
          split at h
          next => cases h
          next hasc =>
            have hle : times.Pairwise (· ≤ ·) := timesAscend_iff.mp (by simpa using hasc)
            by_cases hne : times = []
            · subst hne
              cases h
              refine ⟨[], [], htimes, ?_, .inl rfl⟩
              exact congrArg (fun fields => { f with fields := fields }) (emptyCopy_fields f)
            · obtain ⟨-, -, buckets, hbuckets, -, hg⟩ :=
                (fill_eq_ok_iff htimes hle hne range interval policy g).mp hfill
              exact ⟨times, buckets, htimes, hg, .inr hbuckets⟩

/-- The buckets that filling puts the fields on ascend strictly. -/
theorem filled_of_fill {f g : Frame} {timeIndex : Nat} {range : TimeRange} {interval : Span}
    {policy : FillPolicy} (h : f.fill timeIndex range interval policy = .ok g) :
    ∃ times buckets, f.times timeIndex = .ok times ∧ buckets.Pairwise (· < ·) ∧
      g = filled f timeIndex policy times buckets := by
  obtain ⟨hwidth, -, -, times, buckets, htimes, hg, hbuckets⟩ := fill_cases h
  refine ⟨times, buckets, htimes, ?_, hg⟩
  rcases hbuckets with rfl | hgrid
  · exact List.Pairwise.nil
  · exact buckets?_pairwise hwidth.1 hgrid

theorem schema_filled (f : Frame) (timeIndex : Nat) (policy : FillPolicy)
    (times buckets : List Instant) :
    (filled f timeIndex policy times buckets).schema = f.schema := by
  have hkinds : (filled f timeIndex policy times buckets).fields.map Field.kind =
      f.fields.map Field.kind := by
    refine List.ext_getElem? fun i => ?_
    rw [filled, columns, List.getElem?_map, List.getElem?_mapIdx, List.getElem?_map,
      Option.map_map]
    rfl
  rw [schema, hkinds, schema]

theorem aligned_filled {f : Frame} {timeIndex : Nat} {policy : FillPolicy}
    {times buckets : List Instant} {g : Field}
    (hg : g ∈ (filled f timeIndex policy times buckets).fields) :
    g.column.length = buckets.length := by
  obtain ⟨i, hi⟩ := List.getElem?_of_mem hg
  rw [filled, columns, List.getElem?_mapIdx, Option.map_eq_some_iff] at hi
  obtain ⟨source, -, rfl⟩ := hi
  exact length_bucketCells _ _ _ _ _ _ _

theorem timeColumn_filled {f : Frame} {timeIndex : Nat} {policy : FillPolicy}
    {times buckets : List Instant} (htimes : f.times timeIndex = .ok times) :
    (((filled f timeIndex policy times buckets).fields)[timeIndex]?).map Field.column =
      some (Pivot.timeColumn buckets) := by
  obtain ⟨⟨name, labels, column⟩, htime, hcolumn⟩ :=
    Option.map_eq_some_iff.mp (times_eq_ok_iff.mp htimes)
  dsimp only at hcolumn
  subst hcolumn
  rw [filled, columns, List.getElem?_mapIdx, htime, Option.map_some, Option.map_some,
    bucketCells_time rfl]
  rfl

/-- A wide frame stays wide when its gaps are filled, and has the buckets as its times. -/
theorem isSeries_of_fill {f g : Frame} (hwide : f.schema.shape = .wide) {range : TimeRange}
    {interval : Span} {policy : FillPolicy}
    (h : f.fill f.schema.timeIndex range interval policy = .ok g) :
    (∃ length, g.IsSeries length) ∧ g.Ticks := by
  obtain ⟨times, buckets, htimes, hasc, rfl⟩ := filled_of_fill h
  have hschema := schema_filled f f.schema.timeIndex policy times buckets
  have hwide' := (congrArg Schema.shape hschema).trans hwide
  refine ⟨⟨buckets.length, hwide', fun g => aligned_filled⟩, ticks_of_timeColumn hwide' ?_ hasc⟩
  rw [hschema]
  exact timeColumn_filled htimes

/-- What filling the gaps leaves of a series, whether a policy was asked for or not. -/
theorem isSeries_of_fillGaps {f g : Frame} {length : Nat} (hf : f.IsSeries length)
    {gaps : GapFill} (h : f.fillGaps gaps = .ok g) :
    (∃ length, g.IsSeries length) ∧ (f.Ticks ∨ gaps.policy ≠ none → g.Ticks) := by
  rw [fillGaps] at h
  split at h
  next hpolicy =>
    cases h
    exact ⟨⟨length, hf⟩, fun hticks => hticks.resolve_right fun hne => hne hpolicy⟩
  next =>
    obtain ⟨hseries, hticks⟩ := isSeries_of_fill hf.wide h
    exact ⟨hseries, fun _ => hticks⟩

/-! ## Spreading -/

open Pivot

/-- The series of a spread have the kinds of value fields. -/
theorem mem_kinds_of_holds {f : Frame} {times : List Instant} (hrows : times ≠ []) {size : Nat}
    {m : SeriesMap} (hm : Holds size (f.writes times) m) (policy : FillPolicy) {k : Kind} :
    k ∈ (m.entries.map (seriesField policy)).map Field.kind ↔
      ∃ i ∈ f.schema.valueIndices, (f.fields.map Field.kind)[i]? = some k := by
  have hentries : ∀ key s, (key, s) ∈ m.entries ↔ m.find? key = some s := fun _ _ =>
    SortedMap.mem_entries_iff SeriesKey.lt_irrefl hm.sorted
  constructor
  · intro hk
    obtain ⟨g, hg, rfl⟩ := List.mem_map.mp hk
    obtain ⟨⟨key, s⟩, hentry, rfl⟩ := List.mem_map.mp hg
    obtain ⟨-, w, hw, rfl⟩ := hm.only key s ((hentries key s).mp hentry)
    obtain ⟨s', hs', hkind⟩ := hm.seen w hw
    cases ((hentries _ s).mp hentry).symm.trans hs'
    obtain ⟨hi, hfield, -⟩ := mem_writes.mp hw
    refine ⟨w.index, hi, ?_⟩
    rw [List.getElem?_map, hfield, Option.map_some, ← hkind]
    rfl
  · rintro ⟨i, hi, hk⟩
    obtain ⟨w, hw, rfl, -⟩ := exists_write hi (List.length_pos_of_ne_nil hrows)
    obtain ⟨-, hfield, -⟩ := mem_writes.mp hw
    obtain ⟨s, hs, hkind⟩ := hm.seen w hw
    rw [List.getElem?_map, hfield, Option.map_some, ← hkind, Option.some.injEq] at hk
    rw [List.map_map]
    exact List.mem_map.mpr ⟨(w.key, s), (hentries _ s).mpr hs, hk⟩

/-- A spread frame has no labels: its series have the kinds of value fields, and one of these
is numeric. -/
theorem isSeries_of_holds {f wide : Frame} {times : List Instant} (hlong : f.schema.shape = .long)
    (hrows : times ≠ []) {name : String} {m : SeriesMap} {policy : FillPolicy}
    (hm : Holds (distinct times).length (f.writes times) m)
    (hwide : wide.fields = .ofColumn name (timeColumn (distinct times)) ::
      m.entries.map (seriesField policy)) :
    wide.IsSeries (distinct times).length := by
  refine ⟨?_, (hasTimes_of_holds hm hwide).aligned⟩
  rw [schema, hwide, List.map_cons, Schema.shape_eq_wide_iff]
  refine ⟨List.mem_cons_self, ?_, fun k hk => ?_⟩
  · have hshape : f.schema.shape ≠ .none := by
      rw [hlong]
      decide
    obtain ⟨i, hi, k, hk, hnumeric⟩ := Schema.exists_numeric_valueIndex hshape
    exact ⟨k, List.mem_cons_of_mem _ ((mem_kinds_of_holds hrows hm policy).mpr ⟨i, hi, hk⟩),
      hnumeric⟩
  · rcases List.mem_cons.mp hk with rfl | hk
    · rfl
    · obtain ⟨i, hi, hk⟩ := (mem_kinds_of_holds hrows hm policy).mp hk
      obtain ⟨k', hk', hnot⟩ := Schema.kind_of_mem_valueIndices hi
      cases hk.symm.trans hk'
      exact hnot

/-- A long frame whose fields have one length becomes a series with ascending times when it is
spread. -/
theorem isSeries_of_pivot {f wide : Frame} {length : Nat} (hlong : f.schema.shape = .long)
    (htimes : f.HasTimes f.schema.timeIndex length) (hrows : f.rowCount ≠ 0)
    {policy : FillPolicy} (h : f.pivot f.schema policy = .ok wide) :
    (∃ length, wide.IsSeries length) ∧ wide.Ticks := by
  rcases pivot_cases_of_long hlong htimes policy with ⟨e, he, -⟩ | ⟨times, hordered, hlength⟩
  · cases h.symm.trans he
  have hne : times ≠ [] := by
    rintro rfl
    rw [htimes.rowCount_eq, ← hlength] at hrows
    exact hrows rfl
  rcases pivot_cases hordered policy with
    ⟨wide', name, m, hpivot, hm, hwide⟩ | ⟨_, _, _, _, _, _, he⟩
  · cases h.symm.trans hpivot
    have hseries := isSeries_of_holds hlong hne hm hwide
    refine ⟨⟨_, hseries⟩, ticks_of_timeColumn hseries.wide ?_
      (distinct_pairwise hordered.ascend)⟩
    rw [timeIndex_of_cons hwide rfl, hwide]
    rfl
  · cases h.symm.trans he

end Frame

/-! ## Assembling -/

namespace Table

theorem isSeries_of_assemble {t : Table} {length : Nat}
    (haligned : ∀ c ∈ t.columns, c.column.length = length) (hrows : t.rowCount ≠ 0)
    (hshape : (t.toFrame Frame.responseName).schema.shape ≠ .none) {gaps : GapFill} {g : Frame}
    (h : t.assemble .timeseries gaps = .ok g) :
    (∃ length, g.IsSeries length) ∧
      ((t.toFrame Frame.responseName).schema.shape = .long ∨ gaps.policy ≠ none → g.Ticks) := by
  have htimes := hasTimes_toFrame Frame.responseName haligned hshape
  cases hcase : (t.toFrame Frame.responseName).schema.shape with
  | none => exact absurd hcase hshape
  | wide =>
    rw [assemble_of_wide hrows hcase] at h
    obtain ⟨hseries, hticks⟩ := Frame.isSeries_of_fillGaps ⟨hcase, htimes.aligned⟩ h
    exact ⟨hseries, fun hor => hticks (hor.imp_left nofun)⟩
  | long =>
    rw [assemble_of_spread hrows hcase] at h
    cases hpivot : (t.toFrame Frame.responseName).pivot
        (t.toFrame Frame.responseName).schema (gaps.policy.getD .null) with
    | error e =>
      rw [hpivot] at h
      cases h
    | ok wide =>
      rw [hpivot] at h
      obtain ⟨⟨length', hwide⟩, hticks⟩ :=
        Frame.isSeries_of_pivot hcase htimes (by rwa [rowCount_toFrame]) hpivot
      obtain ⟨hseries, hkeep⟩ := Frame.isSeries_of_fillGaps hwide h
      exact ⟨hseries, fun _ => hkeep (.inl hticks)⟩

/-- The frame of a table with columns of one length, assembled as time series.  It has the
columns as they are if there are no rows or these form no series.  Otherwise it is a wide
series whose fields have one length, and if the table was long or its gaps are filled, the
times ascend strictly. -/
theorem assemble_shape (t : Table) (length : Nat) (gaps : GapFill) (g : Frame)
    (haligned : ∀ c ∈ t.columns, c.column.length = length)
    (h : t.assemble .timeseries gaps = .ok g) :
    (t.rowCount = 0 ∨ (t.toFrame Frame.responseName).schema.shape = .none →
      g.fields = t.columns.map fun c => .ofColumn c.name c.column) ∧
    (t.rowCount ≠ 0 → (t.toFrame Frame.responseName).schema.shape ≠ .none →
      g.schema.shape = .wide ∧ (∃ length, ∀ field ∈ g.fields, field.column.length = length) ∧
        ((t.toFrame Frame.responseName).schema.shape = .long ∨ gaps.policy ≠ none → g.Ticks)) := by
  constructor
  · intro hplain
    rw [assemble_of_plain hplain, Except.ok.injEq] at h
    rw [← h]
    rfl
  · intro hrows hshape
    obtain ⟨⟨length', hseries⟩, hticks⟩ := isSeries_of_assemble haligned hrows hshape h
    exact ⟨hseries.wide, ⟨length', hseries.aligned⟩, hticks⟩

/-- A value of a host with two times, of which the first one is behind the host. -/
def loggedValue : Table :=
  ⟨[⟨"host", ⟨.string, #[some "a"]⟩⟩, ⟨"time", Pivot.timeColumn [.near 60 0]⟩,
    ⟨"logged", ⟨.timestamp, #[none]⟩⟩, ⟨"value", ⟨.float, #[none]⟩⟩]⟩

/-- A range that ends before it starts, so that it has no buckets. -/
def noBuckets : GapFill := ⟨⟨.near 120 0, .near 0 0⟩, Span.ofSeconds 60, some .previous⟩

theorem assemble_shape_noBuckets : ∃ g, loggedValue.assemble .timeseries noBuckets = .ok g ∧
    g.rowCount = 0 ∧ g.schema.shape = .wide ∧ g.Ticks := by
  obtain ⟨g, hg⟩ : ∃ g, loggedValue.assemble .timeseries noBuckets = .ok g := ⟨_, rfl⟩
  obtain ⟨-, hseries⟩ := assemble_shape loggedValue 1 noBuckets g (by decide) hg
  obtain ⟨hwide, -, hticks⟩ := hseries (by decide) (by decide)
  refine ⟨g, hg, ?_, hwide, hticks (.inl (by decide))⟩
  cases hg
  rfl

end Table

end SeriesQuery
