import SeriesQuery.Proofs.Query.Interval
import SeriesQuery.Proofs.Query.Tag

/-!
# Widths that buckets cannot have

The call for buckets and the filling of gaps both check the width, and not in the same way.  The
call takes every positive number of whole seconds that a span can have, which is one of 64 bits
(`Call.Buckets.seconds_ne_zero`).  The filling computes with signed numbers and refuses what
does not fit 63 bits, with the words it has for a width of less than a second
(`Span.Unfillable`).  So the filling refuses no width for being too small, and it refuses those
from `2^63` seconds on that were accepted before (`QueryRequest.run_refuses_width_iff`).

An error of the conversion can only come from the table (`QueryRequest.error_eq_conversion_iff`),
and among these errors the width is refused only when the rows are put on buckets
(`Table.Course.invalidInterval_iff`).
-/

namespace SeriesQuery

/-! ## Widths that are accepted -/

/-- A call is not accepted with buckets of less than a second. -/
theorem Call.Buckets.seconds_ne_zero {call : Call} {width : Span} (h : call.Buckets width) :
    width.seconds ≠ 0 :=
  (Expansion.wholeSeconds_of_readWidth h.width).1

/-- A width that a call has accepted is refused only for being too large. -/
theorem Call.Buckets.unfillable_iff {call : Call} {width : Span} (h : call.Buckets width) :
    width.Unfillable ↔ Digits.maxInt64 < width.seconds := by
  have hpos := h.seconds_ne_zero
  rw [Span.Unfillable]
  omega

/-! ## Errors of the conversion -/

namespace ExpandedQuery

variable {q : ExpandedQuery} {x : Executor} {d : Dialect} {request : QueryRequest}
  {cancelled : Bool} {e : ConversionError}

theorem ofRequest_ne_conversion : ofRequest d request ≠ .error (.conversion e) := by
  rw [ofRequest]
  cases Expansion.expand d (.fresh request.range request.interval) request.raw with
  | ok expanded => exact fun h => by cases h
  | error e' =>
    intro h
    simp only [QueryError.ofExpansion, Except.error.injEq] at h
    split at h
    · cases h
    · cases h

theorem ofTable_ne_conversion (sql : String) (e' : TableError) :
    QueryError.ofTable sql e' ≠ .conversion e := by
  cases e' <;> exact fun h => by cases h

theorem execute_ne_conversion : q.execute x cancelled ≠ .done (.error (.conversion e)) := by
  rw [execute]
  cases x.reply cancelled q.sql with
  | waiting => exact fun h => by cases h
  | failure e' => exact fun h => by cases h
  | fault f =>
    cases f with
    | answering payload => exact fun h => by cases h
    | fetching columns rows payload =>
      rw [readAnswer]
      cases Table.ofRows columns rows with
      | ok table => exact fun h => by cases h
      | error e' =>
        intro h
        exact ofTable_ne_conversion q.sql e' (Except.error.inj (Progress.done.inj h))
  | rows result =>
    rw [readAnswer]
    cases Table.ofResult result with
    | ok table => exact fun h => by cases h
    | error e' =>
      intro h
      exact ofTable_ne_conversion q.sql e' (Except.error.inj (Progress.done.inj h))

/-- An error that is no fault is reported as it is. -/
theorem toFrame_eq_conversion_iff {t : Table} (he : QueryError.ofConversion e = .conversion e) :
    q.toFrame t = .error (.conversion e) ↔ t.assemble q.format q.gaps = .error e := by
  rw [toFrame]
  cases t.assemble q.format q.gaps with
  | ok frame => exact ⟨(fun h => by cases h), fun h => by cases h⟩
  | error e' =>
    constructor
    · intro h
      cases e' <;> cases h <;> rfl
    · intro h
      cases h
      exact congrArg Except.error he

end ExpandedQuery

namespace QueryRequest

variable {request : QueryRequest} {x : Executor} {d : Dialect} {cancelled : Bool} {o : QueryOutput}

/-- A query ends with an error of the conversion exactly if the table that was read does, unless
this is a fault. -/
theorem error_eq_conversion_iff (ho : (request.run x d cancelled).output = .done o)
    {e : ConversionError} (he : QueryError.ofConversion e = .conversion e) :
    o.error = some (.conversion e) ↔
      ∃ q result t, ExpandedQuery.ofRequest d request = .ok q ∧
        x.reply cancelled q.sql = .rows result ∧ Table.ofResult result = .ok t ∧
          t.assemble request.format q.gaps = .error e := by
  obtain ⟨r, hends, rfl⟩ := exists_ends ho
  constructor
  · intro herror
    obtain rfl : r = .error (.conversion e) := by
      cases r with
      | ok frame => cases herror
      | error err => rw [Option.some.inj herror]
    cases hends with
    | unexpanded h => exact absurd h ExpandedQuery.ofRequest_ne_conversion
    | unread _ h => exact absurd h ExpandedQuery.execute_ne_conversion
    | @read q t _ hq hexecute hr =>
      obtain ⟨result, hreply, hresult⟩ := ExpandedQuery.execute_eq_ok_iff.mp hexecute
      rw [ExpandedQuery.toFrame_eq_conversion_iff he, ExpandedQuery.format_of_ofRequest hq] at hr
      exact ⟨q, result, t, hq, hreply, hresult, hr⟩
  · rintro ⟨q, result, t, hq, hreply, hresult, herror⟩
    have hexecute : q.execute x cancelled = .done (.ok t) :=
      ExpandedQuery.execute_eq_ok_iff.mpr ⟨result, hreply, hresult⟩
    cases hends with
    | unexpanded h => cases hq.symm.trans h
    | unread hq' h =>
      cases hq.symm.trans hq'
      cases hexecute.symm.trans h
    | read hq' h hr =>
      cases hq.symm.trans hq'
      cases hexecute.symm.trans h
      rw [← ExpandedQuery.format_of_ofRequest hq, ← ExpandedQuery.toFrame_eq_conversion_iff he, hr]
        at herror
      rw [herror]
      rfl

/-- A query ends because of the width of its buckets exactly if a call in its text was accepted
with that width, the table that was read is put on buckets, and the width exceeds 63 bits.  No
width up to there is accepted by the call and refused when gaps are filled. -/
theorem run_refuses_width_iff (request : QueryRequest) (x : Executor) (d : Dialect)
    (cancelled : Bool) (o : QueryOutput) (ho : (request.run x d cancelled).output = .done o) :
    o.error = some (.conversion .invalidInterval) ↔
      ∃ q call result t, ExpandedQuery.ofRequest d request = .ok q ∧
        .call call ∈ Piece.ofText request.raw.toList ∧ call.Buckets q.gaps.interval ∧
        x.reply cancelled q.sql = .rows result ∧ Table.ofResult result = .ok t ∧
        t.Fills request.format q.gaps ∧ Digits.maxInt64 < q.gaps.interval.seconds := by
  rw [error_eq_conversion_iff ho rfl]
  constructor
  · rintro ⟨q, result, t, hq, hreply, hresult, herror⟩
    obtain ⟨hfills, hwidth⟩ :=
      (Table.assemble_course (Table.length_of_ofResult hresult) _ _).invalidInterval_iff.mp herror
    obtain ⟨call, hcall, hbuckets⟩ := ExpandedQuery.buckets_of_policy hq hfills.policy
    exact ⟨q, call, result, t, hq, hcall, hbuckets, hreply, hresult, hfills,
      hbuckets.unfillable_iff.mp hwidth⟩
  · rintro ⟨q, call, result, t, hq, -, hbuckets, hreply, hresult, hfills, hwidth⟩
    exact ⟨q, result, t, hq, hreply, hresult,
      (Table.assemble_course (Table.length_of_ofResult hresult) _ _).invalidInterval_iff.mpr
        ⟨hfills, hbuckets.unfillable_iff.mpr hwidth⟩⟩

/-- The greatest width of 63 bits is accepted twice. -/
theorem run_refuses_width_greatest : ∃ q o,
    ExpandedQuery.ofRequest .snowflake (byWidth "9223372036854775807s") = .ok q ∧
      q.gaps.interval.seconds = 9223372036854775807 ∧
      ((byWidth "9223372036854775807s").run oneBucket .snowflake false).output = .done o ∧
      o.error ≠ some (.conversion .invalidInterval) := by
  obtain ⟨q, hq, hseconds⟩ : ∃ q,
      ExpandedQuery.ofRequest .snowflake (byWidth "9223372036854775807s") = .ok q ∧
        q.gaps.interval.seconds = 9223372036854775807 := by
    rw [ExpandedQuery.ofRequest, Expansion.expand, ofText_byWidth (by decide)]
    exact ⟨_, rfl, rfl⟩
  obtain ⟨o, ho⟩ : ∃ o,
      ((byWidth "9223372036854775807s").run oneBucket .snowflake false).output = .done o := by
    rw [run, hq]
    exact ⟨_, rfl⟩
  refine ⟨q, o, hq, hseconds, ho, fun herror => ?_⟩
  obtain ⟨q', call, result, t, hq', -, -, -, -, -, hwidth⟩ :=
    (run_refuses_width_iff _ _ _ _ o ho).mp herror
  cases hq.symm.trans hq'
  rw [hseconds] at hwidth
  exact absurd hwidth (by decide)

/-- The next one is accepted by the call, and refused when the gaps are filled. -/
theorem run_refuses_accepted_width : ∃ q o,
    ExpandedQuery.ofRequest .snowflake (byWidth "9223372036854775808s") = .ok q ∧
      q.gaps.interval.seconds = 9223372036854775808 ∧
      ((byWidth "9223372036854775808s").run oneBucket .snowflake false).output = .done o ∧
      o.error = some (.conversion .invalidInterval) := by
  obtain ⟨q, hq, hseconds, hpolicy⟩ : ∃ q,
      ExpandedQuery.ofRequest .snowflake (byWidth "9223372036854775808s") = .ok q ∧
        q.gaps.interval.seconds = 9223372036854775808 ∧ q.gaps.policy ≠ none := by
    rw [ExpandedQuery.ofRequest, Expansion.expand, ofText_byWidth (by decide)]
    exact ⟨_, rfl, rfl, Option.some_ne_none _⟩
  obtain ⟨o, ho⟩ : ∃ o,
      ((byWidth "9223372036854775808s").run oneBucket .snowflake false).output = .done o := by
    rw [run, hq]
    exact ⟨_, rfl⟩
  obtain ⟨result, t, hreply, ht, hfills⟩ := exists_fills_oneBucket q.sql hpolicy
  have hwidth : q.gaps.interval.Unfillable := .inr (by rw [hseconds]; decide)
  refine ⟨q, o, hq, hseconds, ho,
    (error_eq_conversion_iff ho rfl).mpr ⟨q, result, t, hq, hreply, ht, ?_⟩⟩
  exact (Table.assemble_course (Table.length_of_ofResult ht) _ _).invalidInterval_iff.mpr
    ⟨hfills, hwidth⟩

end QueryRequest

end SeriesQuery
