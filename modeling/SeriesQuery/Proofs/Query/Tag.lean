import SeriesQuery.Proofs.Frame.Shape
import SeriesQuery.Proofs.Query.Containment

/-!
# The tag of an output

The tag that is noted on a frame is worked out from that frame alone, apart from what was done
to make it.  If the table has rows, the two agree (`Table.tag_of_assemble`): a frame that is
not the plain one of the columns is a wide series, and the plain one is tagged as a table
because it has rows and is no series.

Without rows nothing is made of the columns, and the frame is tagged as time series were asked
for, whether the columns could be some or not.
-/

namespace SeriesQuery

/-- The tag that is noted on a frame. -/
def Frame.tag? (f : Frame) : Option FrameType := f.note.map FrameNote.type

theorem FrameType.of_eq_table_iff {f : Frame} :
    FrameType.of .timeseries f = .table ↔ f.rowCount ≠ 0 ∧ f.schema.shape = .none := by
  rw [FrameType.of]
  by_cases h : f.rowCount ≠ 0 ∧ f.schema.shape = .none
  · simp [h]
  · simp [h]

theorem FrameType.of_eq_wide_iff {f : Frame} :
    FrameType.of .timeseries f = .timeseriesWide ↔ ¬ (f.rowCount ≠ 0 ∧ f.schema.shape = .none) := by
  rw [← of_eq_table_iff]
  cases FrameType.of .timeseries f <;> simp

namespace Table

/-- The frame of a table with rows is tagged as a wide series if it is one, and as a table if
the rows form no series. -/
theorem tag_of_assemble {t : Table} {length : Nat}
    (haligned : ∀ c ∈ t.columns, c.column.length = length) (hrows : t.rowCount ≠ 0)
    {gaps : GapFill} {g : Frame} (h : t.assemble .timeseries gaps = .ok g) :
    (FrameType.of .timeseries g = .timeseriesWide ↔ g.schema.shape = .wide) ∧
      (FrameType.of .timeseries g = .table ↔
        (t.toFrame Frame.responseName).schema.shape = .none) := by
  rw [FrameType.of_eq_wide_iff, FrameType.of_eq_table_iff]
  by_cases hshape : (t.toFrame Frame.responseName).schema.shape = .none
  · rw [assemble_of_plain (.inr hshape), Except.ok.injEq] at h
    subst h
    rw [rowCount_toFrame]
    simp [hrows, hshape]
  · obtain ⟨⟨length', hseries⟩, -⟩ := isSeries_of_assemble haligned hrows hshape h
    simp [hseries.wide, hshape]

end Table

theorem ExpandedQuery.format_of_ofRequest {q : ExpandedQuery} {d : Dialect} {request : QueryRequest}
    (h : ofRequest d request = .ok q) : q.format = request.format := by
  rw [ofRequest] at h
  split at h
  next => cases h
  next =>
    cases h
    rfl

namespace QueryRequest

/-- The frame of an output without an error was made of the table that was read. -/
theorem exists_assembled {request : QueryRequest} {x : Executor} {d : Dialect} {cancelled : Bool}
    {o : QueryOutput} (ho : (request.run x d cancelled).output = .done o)
    (herror : o.error = none) :
    ∃ q result t g, ExpandedQuery.ofRequest d request = .ok q ∧
      x.reply cancelled q.sql = .rows result ∧ Table.ofResult result = .ok t ∧
        t.assemble request.format q.gaps = .ok g ∧
          o.frame.tag? = some (.of request.format g) ∧ o.frame.fields = g.fields := by
  obtain ⟨r, hends, rfl⟩ := exists_ends ho
  cases hends with
  | unexpanded => cases herror
  | unread => cases herror
  | @read q t r hq hexecute hr =>
    cases r with
    | error e => cases herror
    | ok g =>
      obtain ⟨result, hreply, hresult⟩ := ExpandedQuery.execute_eq_ok_iff.mp hexecute
      rw [toFrame_eq_ok_iff, ExpandedQuery.format_of_ofRequest hq] at hr
      exact ⟨q, result, t, g, hq, hreply, hresult, hr, rfl, rfl⟩

/-- The tag of an output that was asked for as time series and has no error.  If the table
that was read has rows, the frame is tagged as a wide series exactly if it is one, and as a
table exactly if the rows form no series.  Without rows the frame has the columns as they are,
and is tagged as a wide series whether they could be one or not. -/
theorem run_tag (request : QueryRequest) (x : Executor) (d : Dialect) (cancelled : Bool)
    (o : QueryOutput) (hformat : request.format = .timeseries)
    (ho : (request.run x d cancelled).output = .done o) (herror : o.error = none) :
    ∃ q result t, ExpandedQuery.ofRequest d request = .ok q ∧
      x.reply cancelled q.sql = .rows result ∧ Table.ofResult result = .ok t ∧
      (t.rowCount ≠ 0 →
        (o.frame.tag? = some .timeseriesWide ↔ o.frame.schema.shape = .wide) ∧
          (o.frame.tag? = some .table ↔
            (t.toFrame Frame.responseName).schema.shape = .none)) ∧
      (t.rowCount = 0 →
        o.frame.tag? = some .timeseriesWide ∧
          o.frame.fields = (t.toFrame Frame.responseName).fields) := by
  obtain ⟨q, result, t, g, hq, hreply, hresult, hg, htag, hfields⟩ := exists_assembled ho herror
  rw [hformat] at hg htag
  refine ⟨q, result, t, hq, hreply, hresult, fun hrows => ?_, fun hrows => ?_⟩
  · rw [htag, Frame.schema, hfields, ← Frame.schema, Option.some.injEq, Option.some.injEq]
    exact Table.tag_of_assemble (Table.length_of_ofResult hresult) hrows hg
  · rw [Table.assemble_of_plain (.inl hrows), Except.ok.injEq] at hg
    subst hg
    rw [htag, FrameType.of_eq_wide_iff.mpr fun h => h.1 ((Table.rowCount_toFrame t _).trans hrows)]
    exact ⟨rfl, hfields⟩

/-- An executor that answers with rows of one number. -/
def ofNumbers (rows : List Row) : Executor where
  answer _ := .rows ⟨[⟨"v", .kind .integer⟩], ⟨rows, none⟩⟩

/-- A number without a time is tagged as a table. -/
theorem run_tag_number : ∃ o,
    (oneColumn.run (ofNumbers [[.int 1]]) .snowflake false).output = .done o ∧
      o.error = none ∧ o.frame.tag? = some .table ∧ o.frame.schema.shape ≠ .wide := by
  obtain ⟨o, ho, herror⟩ : ∃ o,
      (oneColumn.run (ofNumbers [[.int 1]]) .snowflake false).output = .done o ∧
        o.error = none := by
    rw [run, ofRequest_oneColumn]
    exact ⟨_, rfl, rfl⟩
  obtain ⟨q, result, t, hq, hreply, hresult, hrows, -⟩ :=
    run_tag oneColumn (ofNumbers [[.int 1]]) .snowflake false o rfl ho herror
  cases hreply
  cases hresult
  obtain ⟨hwide, htable⟩ := hrows (by decide)
  have htag := htable.mpr (by decide)
  refine ⟨o, ho, herror, htag, fun hshape => ?_⟩
  rw [hwide.mpr hshape] at htag
  cases htag

/-- No numbers without a time are tagged as a wide series. -/
theorem run_noNumbers_timeseriesWide : ∃ o,
    (oneColumn.run (ofNumbers []) .snowflake false).output = .done o ∧ o.error = none ∧
      o.frame.tag? = some .timeseriesWide ∧ o.frame.schema.shape = .none := by
  rw [run, ofRequest_oneColumn]
  exact ⟨_, rfl, rfl, rfl, rfl⟩

end QueryRequest

end SeriesQuery
