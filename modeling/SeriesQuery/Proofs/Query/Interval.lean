import SeriesQuery.Proofs.Expansion.Context
import SeriesQuery.Proofs.Query.Containment
import SeriesQuery.Proofs.Time.Order

/-!
# The interval that is asked for

A request names an interval, but nothing of its answer depends on it.  The expansion starts
with that interval and never looks at it.  Filling gaps does look at an interval, and is done
only if the expansion has found a fill mode.  Fill modes are found by the call for buckets,
which has put its own width in the place of the interval by then.

So the expansions of two requests that differ in the interval alone are alike
(`ofRequest_alike`), and what is alike gives the same frame (`toFrame_of_alike`).
-/

namespace SeriesQuery

namespace ExpandedQuery

/-- Expanded queries that may differ in the interval, but not if gaps are to be filled. -/
structure Alike (q q' : ExpandedQuery) : Prop where
  sql : q'.sql = q.sql
  format : q'.format = q.format
  context : q.context.Alike q'.context

variable {q q' : ExpandedQuery}

theorem fillGaps_of_alike (h : q.Alike q') (f : Frame) :
    f.fillGaps q'.gaps = f.fillGaps q.gaps := by
  have hpolicy : q'.gaps.policy = q.gaps.policy := h.context.fill
  rw [Frame.fillGaps, Frame.fillGaps, hpolicy]
  cases hfill : q.gaps.policy with
  | none => rfl
  | some policy =>
    have hrange : q'.gaps.range = q.gaps.range := h.context.range
    have hinterval : q'.gaps.interval = q.gaps.interval :=
      h.context.interval fun hnone => by cases hfill.symm.trans hnone
    dsimp only
    rw [hrange, hinterval]

theorem assemble_of_alike (h : q.Alike q') (t : Table) (format : DataFormat) :
    t.assemble format q'.gaps = t.assemble format q.gaps := by
  have hpolicy : q'.gaps.policy = q.gaps.policy := h.context.fill
  simp only [Table.assemble, fillGaps_of_alike h, hpolicy]

theorem toFrame_of_alike (h : q.Alike q') : q'.toFrame = q.toFrame := by
  funext t
  rw [toFrame, toFrame, h.format, assemble_of_alike h]

/-- The statement is the same, so it is answered in the same way. -/
theorem execute_of_alike (h : q.Alike q') {x x' : Executor} {cancelled : Bool}
    (hx : ∀ sql, x'.reply cancelled sql = x.reply cancelled sql) :
    q'.execute x' cancelled = q.execute x cancelled := by
  rw [execute, execute, hx, h.sql]
  cases x.reply cancelled q.sql <;> simp only [readAnswer, h.sql]

/-- Two requests that differ in the interval are not expanded for the same reason, or are
expanded alike. -/
theorem ofRequest_alike (d : Dialect) (request : QueryRequest) (interval : Span) :
    (∃ e, ofRequest d request = .error e ∧ ofRequest d { request with interval } = .error e) ∨
      ∃ q q', ofRequest d request = .ok q ∧ ofRequest d { request with interval } = .ok q' ∧
        q.Alike q' := by
  have hagree := Expansion.expand_agree (d := d)
    (ExpansionContext.alike_fresh request.range request.interval interval) request.raw
  rw [ofRequest, ofRequest]
  dsimp only
  generalize Expansion.expand d (.fresh request.range request.interval) request.raw = r at hagree
  generalize Expansion.expand d (.fresh request.range interval) request.raw = r' at hagree
  cases hagree with
  | error e => exact .inl ⟨_, rfl, rfl⟩
  | ok sql hctx => exact .inr ⟨_, _, rfl, rfl, ⟨rfl, rfl, hctx⟩⟩

/-- Gaps are only filled by the width of a call for buckets. -/
theorem buckets_of_policy {d : Dialect} {request : QueryRequest}
    (h : ofRequest d request = .ok q) (hpolicy : q.gaps.policy ≠ none) :
    ∃ call, .call call ∈ Piece.ofText request.raw.toList ∧ call.Buckets q.gaps.interval := by
  rw [ofRequest, Expansion.expand] at h
  cases hpieces : Expansion.expandPieces d (.fresh request.range request.interval)
      (Piece.ofText request.raw.toList) with
  | error e =>
    rw [hpieces] at h
    cases h
  | ok result =>
    rw [hpieces] at h
    cases h
    refine (Expansion.expandPieces_cases hpieces).resolve_left fun hfresh => hpolicy ?_
    show result.2.fill = none
    rw [hfresh]
    rfl

end ExpandedQuery

namespace QueryRequest

/-- The interval of a request does not matter: whatever it is, the same statement is given to
the executor, and the output is the same.  Gaps are filled by the width of a call for buckets
in the text, and not otherwise. -/
theorem run_of_interval (request : QueryRequest) (interval : Span) (x x' : Executor) (d : Dialect)
    (cancelled : Bool) (hx : ∀ sql, x'.reply cancelled sql = x.reply cancelled sql) :
    ({ request with interval } : QueryRequest).run x' d cancelled = request.run x d cancelled ∧
      ∀ q, ExpandedQuery.ofRequest d request = .ok q → q.gaps.policy ≠ none →
        ∃ call, .call call ∈ Piece.ofText request.raw.toList ∧
          call.Buckets q.gaps.interval := by
  refine ⟨?_, fun q => ExpandedQuery.buckets_of_policy⟩
  rw [run, run]
  rcases ExpandedQuery.ofRequest_alike d request interval with
    ⟨e, herror, herror'⟩ | ⟨q, q', hq, hq', halike⟩
  · rw [herror, herror']
  · rw [hq, hq']
    dsimp only
    rw [ExpandedQuery.execute_of_alike halike hx, ExpandedQuery.toFrame_of_alike halike, halike.sql]

/-- A query whose text is a call for buckets of a minute, of which the missing ones are to be
null. -/
def byMinute : QueryRequest :=
  ⟨"A", "$__timeGroup(t,60s,null)", ⟨.near 0 0, .near 180 0⟩, Span.zero, .timeseries⟩

/-- The gaps are filled by the minute of the call, whether an hour was asked for or nothing. -/
theorem run_of_interval_byMinute :
    ({ byMinute with interval := Span.ofSeconds 3600 } : QueryRequest).run oneBucket .snowflake
        false = byMinute.run oneBucket .snowflake false ∧
      ∃ q call, ExpandedQuery.ofRequest .snowflake byMinute = .ok q ∧
        q.gaps.interval = Span.ofSeconds 60 ∧
        .call call ∈ Piece.ofText byMinute.raw.toList ∧ call.Buckets q.gaps.interval := by
  have hread : Call.read? "__timeGroup(t,60s,null)".toList =
      some (⟨"__timeGroup".toList, "t,60s,null".toList⟩, []) := by decide
  have hpieces : Piece.ofText byMinute.raw.toList =
      [.call ⟨"__timeGroup".toList, "t,60s,null".toList⟩] := by
    show Piece.ofText ('$' :: "__timeGroup(t,60s,null)".toList) = _
    rw [Piece.ofText, if_pos rfl]
    split
    next found after h =>
      cases hread.symm.trans h
      simp [Piece.ofText]
    next h => cases hread.symm.trans h
  obtain ⟨q, hq, hinterval, hpolicy⟩ : ∃ q, ExpandedQuery.ofRequest .snowflake byMinute = .ok q ∧
      q.gaps.interval = Span.ofSeconds 60 ∧ q.gaps.policy = some .null := by
    rw [ExpandedQuery.ofRequest, Expansion.expand, hpieces]
    exact ⟨_, rfl, rfl, rfl⟩
  obtain ⟨hrun, hgaps⟩ := run_of_interval byMinute (Span.ofSeconds 3600) oneBucket oneBucket
    .snowflake false fun _ => rfl
  have hfill : q.gaps.policy ≠ none := by
    rw [hpolicy]
    exact Option.some_ne_none _
  obtain ⟨call, hcall, hbuckets⟩ := hgaps q hq hfill
  exact ⟨hrun, q, call, hq, hinterval, hcall, hbuckets⟩

end QueryRequest

end SeriesQuery
