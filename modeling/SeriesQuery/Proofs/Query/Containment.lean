import SeriesQuery.Proofs.Frame.Assembled
import SeriesQuery.Query.Run

/-!
# The containment of a query

Whatever goes wrong in a query, its run ends with an output, unless the executor waits
(`output_eq_waiting_iff`).  The output says which statement was executed, and has an
error exactly if a stage failed; then its frame is empty.

A failure of the statement and a fault are told apart from all other failures by their
kinds.  The statement fails if the executor refuses it, or if its cursor fails after
rows that could all be read (`ExpandedQuery.Fails`).  A fault comes from the executor in
the place of an answer or of a row, from a sum of spans in the expansion, or from the
distance to the end of the range when gaps are filled (`QueryRequest.Faults`).  No other
stage gives an error of these kinds: reading rows never reports a failed cursor
(`ofRows_ne_scan`), and making a frame has no other fault (`Table.Course.errors`).
-/

namespace SeriesQuery

/-! ## Reading rows -/

namespace Table

theorem emptyColumns_ne_scan (heads : List ColumnHead) (e : ExecutionError) :
    emptyColumns heads ≠ .error (.scan e) := by
  induction heads with
  | nil => exact fun h => nomatch h
  | cons head heads ih =>
    intro h
    rw [emptyColumns] at h
    cases hhead : TableColumn.ofHead head with
    | error e' =>
      rw [hhead] at h
      cases h
      unfold TableColumn.ofHead at hhead
      split at hhead <;> cases hhead
    | ok c =>
      rw [hhead] at h
      dsimp only at h
      split at h
      next he =>
        cases h
        exact ih he
      next => cases h

theorem append_ne_scan (c : TableColumn) (value : Scalar) (e : ExecutionError) :
    c.append value ≠ .error (.scan e) := by
  intro h
  unfold TableColumn.append at h
  split at h
  · cases h
  · split at h <;> cases h

theorem appendSlots_ne_scan (columns : List TableColumn) (slots : List Scalar)
    (e : ExecutionError) : appendSlots columns slots ≠ .error (.scan e) := by
  induction columns generalizing slots with
  | nil => exact fun h => nomatch h
  | cons c columns ih =>
    cases slots with
    | nil => exact fun h => nomatch h
    | cons value slots =>
      intro h
      rw [appendSlots] at h
      split at h
      next he =>
        cases h
        exact append_ne_scan c value e he
      next =>
        split at h
        next he =>
          cases h
          exact ih slots he
        next => cases h

theorem appendRows_ne_scan (columns : List TableColumn) (slots : List Scalar) (rows : List Row)
    (e : ExecutionError) : appendRows columns slots rows ≠ .error (.scan e) := by
  induction rows generalizing columns slots with
  | nil => exact fun h => nomatch h
  | cons row rows ih =>
    intro h
    rw [appendRows] at h
    split at h
    next he =>
      cases h
      exact appendSlots_ne_scan _ _ e he
    next => exact ih _ _ h

/-- Rows that cannot be read are no failure of the cursor. -/
theorem ofRows_ne_scan (heads : List ColumnHead) (rows : List Row) (e : ExecutionError) :
    ofRows heads rows ≠ .error (.scan e) := by
  intro h
  unfold ofRows at h
  split at h
  next he =>
    cases h
    exact emptyColumns_ne_scan heads e he
  next =>
    split at h
    next he =>
      cases h
      exact appendRows_ne_scan _ _ rows e he
    next => cases h

/-- The cursor is the one that fails if all rows before could be read. -/
theorem ofResult_eq_scan_iff {result : ResultSet} {e : ExecutionError} :
    ofResult result = .error (.scan e) ↔
      (∃ table, ofRows result.columns result.cursor.pending = .ok table) ∧
        result.cursor.failure = some e := by
  unfold ofResult
  cases hrows : ofRows result.columns result.cursor.pending with
  | error e' =>
    constructor
    · intro h
      cases h
      exact absurd hrows (ofRows_ne_scan _ _ e)
    · rintro ⟨⟨_, h⟩, -⟩
      cases h
  | ok table =>
    cases hfailure : result.cursor.failure with
    | none =>
      constructor
      · intro h
        cases h
      · rintro ⟨-, h⟩
        cases h
    | some e' =>
      constructor
      · intro h
        cases h
        exact ⟨⟨table, rfl⟩, rfl⟩
      · rintro ⟨-, h⟩
        cases h
        rfl

end Table

/-! ## What can go wrong -/

namespace ExpandedQuery

/-- The statement of a query fails. -/
inductive Fails (q : ExpandedQuery) (x : Executor) (cancelled : Bool) : ExecutionError → Prop where
  /-- The executor refuses it. -/
  | refused {e : ExecutionError} (h : x.reply cancelled q.sql = .failure e) : Fails q x cancelled e
  /-- Its cursor fails after some rows, which could be read. -/
  | aborted {result : ResultSet} {table : Table} {e : ExecutionError}
      (h : x.reply cancelled q.sql = .rows result)
      (hrows : Table.ofRows result.columns result.cursor.pending = .ok table)
      (hfailure : result.cursor.failure = some e) : Fails q x cancelled e

/-- The executor has a fault. -/
inductive Faults (q : ExpandedQuery) (x : Executor) (cancelled : Bool) : String → Prop where
  /-- It comes in the place of an answer. -/
  | answering {payload : FaultPayload}
      (h : x.reply cancelled q.sql = .fault (.answering payload)) : Faults q x cancelled payload.message
  /-- It comes in the place of a row, and the rows before could be read. -/
  | fetching {columns : List ColumnHead} {rows : List Row} {payload : FaultPayload} {table : Table}
      (h : x.reply cancelled q.sql = .fault (.fetching columns rows payload))
      (hrows : Table.ofRows columns rows = .ok table) : Faults q x cancelled payload.message

end ExpandedQuery

/-- A query has a fault. -/
inductive QueryRequest.Faults (request : QueryRequest) (x : Executor) (d : Dialect)
    (cancelled : Bool) : String → Prop where
  /-- The width of its buckets is a sum of spans that leaves their range in the last step. -/
  | expanding {width : String}
      (h : Expansion.expand d (.fresh request.range request.interval) request.raw =
        .error (.invalidWidth width (.unreadable .carryOverflow))) :
      Faults request x d cancelled Span.ReadError.carryOverflow.message
  /-- The executor has one. -/
  | executing {q : ExpandedQuery} {text : String} (hq : ExpandedQuery.ofRequest d request = .ok q)
      (h : q.Faults x cancelled text) : Faults request x d cancelled text
  /-- The table that was read is put on buckets, of which the first is so far from the end of the
  range that no word holds the distance. -/
  | assembling {q : ExpandedQuery} {result : ResultSet} {table : Table}
      (hq : ExpandedQuery.ofRequest d request = .ok q)
      (hreply : x.reply cancelled q.sql = .rows result) (hresult : Table.ofResult result = .ok table)
      (hfills : table.Fills q.format q.gaps) (hfar : q.gaps.Overflows) :
      Faults request x d cancelled (Word.Operation.overflowText .subtract)

/-- An error of a kind that neither a failure of the statement nor a fault has. -/
def QueryError.IsOther (e : QueryError) : Prop := e.kind ≠ .execution ∧ e.kind ≠ .internalFault

/-! ## The stages -/

namespace ExpandedQuery

variable {q : ExpandedQuery} {x : Executor} {d : Dialect} {request : QueryRequest}
  {cancelled : Bool}

/-- An expansion that fails is no failure of the statement, and a fault only if a sum of
spans is one. -/
theorem ofRequest_eq_error {e : QueryError} (h : ofRequest d request = .error e) :
    (∃ text, request.Faults x d cancelled text ∧ e = .fault text) ∨ e.IsOther := by
  unfold ofRequest at h
  cases hexpand : Expansion.expand d (.fresh request.range request.interval) request.raw with
  | ok expanded =>
    rw [hexpand] at h
    cases h
  | error e' =>
    rw [hexpand] at h
    obtain rfl := Except.error.inj h
    unfold QueryError.ofExpansion
    split
    next => exact .inl ⟨_, .expanding hexpand, rfl⟩
    next => cases e' <;> exact .inr (by simp [QueryError.IsOther, QueryError.kind])

theorem ofRequest_of_expanding {width : String}
    (h : Expansion.expand d (.fresh request.range request.interval) request.raw =
      .error (.invalidWidth width (.unreadable .carryOverflow))) :
    ofRequest d request = .error (.fault Span.ReadError.carryOverflow.message) := by
  rw [ofRequest, h]
  rfl

theorem execute_eq_waiting_iff :
    q.execute x cancelled = .waiting ↔ x.reply cancelled q.sql = .waiting := by
  unfold execute readAnswer
  cases x.reply cancelled q.sql with
  | waiting => simp
  | failure e => simp
  | fault f =>
    cases f with
    | answering payload => simp
    | fetching columns rows payload => cases hrows : Table.ofRows columns rows <;> simp [hrows]
  | rows result => cases hresult : Table.ofResult result <;> simp [hresult]

/-- A table is read from a result, if all its rows and its end can be read. -/
theorem execute_eq_ok_iff {table : Table} :
    q.execute x cancelled = .done (.ok table) ↔
      ∃ result, x.reply cancelled q.sql = .rows result ∧ Table.ofResult result = .ok table := by
  unfold execute readAnswer
  cases x.reply cancelled q.sql with
  | waiting => simp
  | failure e => simp
  | fault f =>
    cases f with
    | answering payload => simp
    | fetching columns rows payload => cases hrows : Table.ofRows columns rows <;> simp [hrows]
  | rows result => cases hresult : Table.ofResult result <;> simp [hresult]

theorem execute_of_fails {e : ExecutionError} (h : q.Fails x cancelled e) :
    q.execute x cancelled = .done (.error (.execution q.sql e)) := by
  cases h with
  | refused h => rw [execute, h, readAnswer]
  | aborted h hrows hfailure =>
    rw [execute, h, readAnswer, Table.ofResult_eq_scan_iff.mpr ⟨⟨_, hrows⟩, hfailure⟩]
    rfl

theorem execute_of_faults {text : String} (h : q.Faults x cancelled text) :
    q.execute x cancelled = .done (.error (.fault text)) := by
  cases h with
  | answering h => rw [execute, h, readAnswer]
  | fetching h hrows => rw [execute, h, readAnswer, hrows]

/-- The error of reading rows is of no kind that a failed statement or a fault has. -/
theorem isOther_ofTable {heads : List ColumnHead} {rows : List Row} {e : TableError}
    (h : Table.ofRows heads rows = .error e) (sql : String) :
    (QueryError.ofTable sql e).IsOther := by
  cases e with
  | unsupportedType column typeName =>
    simp [QueryError.ofTable, QueryError.IsOther, QueryError.kind]
  | coercion column value expected =>
    simp [QueryError.ofTable, QueryError.IsOther, QueryError.kind]
  | scan e => exact absurd h (Table.ofRows_ne_scan _ _ e)

/-- A statement that gives no table fails, or there is a fault, or rows cannot be read. -/
theorem execute_eq_error {err : QueryError} (h : q.execute x cancelled = .done (.error err)) :
    (∃ e, q.Fails x cancelled e ∧ err = .execution q.sql e) ∨
      (∃ text, q.Faults x cancelled text ∧ err = .fault text) ∨ err.IsOther := by
  unfold execute at h
  cases hreply : x.reply cancelled q.sql with
  | waiting =>
    rw [hreply] at h
    cases h
  | failure e =>
    rw [hreply] at h
    cases h
    exact .inl ⟨e, .refused hreply, rfl⟩
  | fault f =>
    rw [hreply] at h
    cases f with
    | answering payload =>
      cases h
      exact .inr (.inl ⟨_, .answering hreply, rfl⟩)
    | fetching columns rows payload =>
      rw [readAnswer] at h
      cases hrows : Table.ofRows columns rows with
      | ok table =>
        rw [hrows] at h
        cases h
        exact .inr (.inl ⟨_, .fetching hreply hrows, rfl⟩)
      | error e =>
        rw [hrows] at h
        cases h
        exact .inr (.inr (isOther_ofTable hrows q.sql))
  | rows result =>
    rw [hreply, readAnswer] at h
    cases hresult : Table.ofResult result with
    | ok table =>
      rw [hresult] at h
      cases h
    | error e =>
      rw [hresult] at h
      cases h
      cases hrows : Table.ofRows result.columns result.cursor.pending with
      | error e' =>
        rw [Table.ofResult, hrows] at hresult
        cases hresult
        exact .inr (.inr (isOther_ofTable hrows q.sql))
      | ok table =>
        cases hfailure : result.cursor.failure with
        | none =>
          simp only [Table.ofResult, hrows, hfailure] at hresult
          cases hresult
        | some e' =>
          simp only [Table.ofResult, hrows, hfailure] at hresult
          cases hresult
          exact .inl ⟨e', .aborted hreply hrows hfailure, rfl⟩

/-- A table of which no frame can be made is neither, unless it is put on buckets of which the
first is too far from the end of the range. -/
theorem toFrame_eq_error {table : Table} {length : Nat}
    (haligned : ∀ c ∈ table.columns, c.column.length = length) {err : QueryError}
    (h : q.toFrame table = .error err) :
    (table.Fills q.format q.gaps ∧ q.gaps.Overflows ∧
        err = .fault (Word.Operation.overflowText .subtract)) ∨ err.IsOther := by
  have hcourse := Table.assemble_course haligned q.format q.gaps
  unfold toFrame at h
  cases hframe : table.assemble q.format q.gaps with
  | ok frame =>
    rw [hframe] at h
    cases h
  | error e =>
    rw [hframe] at h
    cases h
    rcases hcourse.errors hframe with hinput | ⟨expected, found, rfl⟩ | rfl
    · cases hinput <;> simp [QueryError.ofConversion, QueryError.IsOther, QueryError.kind]
    · simp [QueryError.ofConversion, QueryError.IsOther, QueryError.kind]
    · obtain ⟨-, hfills, hfar⟩ := hcourse.overflow_iff.mp hframe
      exact .inl ⟨hfills, hfar, rfl⟩

theorem toFrame_of_overflows {table : Table} {length : Nat}
    (haligned : ∀ c ∈ table.columns, c.column.length = length)
    (hfills : table.Fills q.format q.gaps) (hfar : q.gaps.Overflows) :
    q.toFrame table = .error (.fault (Word.Operation.overflowText .subtract)) := by
  have hcourse := Table.assemble_course haligned q.format q.gaps
  rw [toFrame, hcourse.overflow_iff.mpr ⟨rfl, hfills, hfar⟩]
  rfl

end ExpandedQuery

/-! ## The run -/

namespace QueryRequest

/-- The statement of a query, if it can be expanded. -/
def sql? (request : QueryRequest) (d : Dialect) : Option String :=
  (ExpandedQuery.ofRequest d request).toOption.map ExpandedQuery.sql

/-- How the run of a query may end. -/
inductive Ends (request : QueryRequest) (x : Executor) (d : Dialect) (cancelled : Bool) :
    Except QueryError Frame → Prop where
  /-- It is not expanded. -/
  | unexpanded {e : QueryError} (h : ExpandedQuery.ofRequest d request = .error e) :
      Ends request x d cancelled (.error e)
  /-- Its statement gives no table. -/
  | unread {q : ExpandedQuery} {e : QueryError}
      (hq : ExpandedQuery.ofRequest d request = .ok q)
      (h : q.execute x cancelled = .done (.error e)) : Ends request x d cancelled (.error e)
  /-- Its statement gives a table, of which a frame is made or not. -/
  | read {q : ExpandedQuery} {table : Table} {r : Except QueryError Frame}
      (hq : ExpandedQuery.ofRequest d request = .ok q)
      (h : q.execute x cancelled = .done (.ok table)) (hr : q.toFrame table = r) :
      Ends request x d cancelled r

/-- What the output of a query has to be. -/
structure Contained (request : QueryRequest) (x : Executor) (d : Dialect) (cancelled : Bool)
    (o : QueryOutput) : Prop where
  /-- The note tells the statement, or none if the query could not be expanded. -/
  note : o.frame.note = some ⟨.of request.format o.frame, (request.sql? d).getD ""⟩
  /-- There is no error exactly if every stage succeeded. -/
  error_eq_none_iff : o.error = none ↔ ∃ q result table frame,
    ExpandedQuery.ofRequest d request = .ok q ∧ x.reply cancelled q.sql = .rows result ∧
      Table.ofResult result = .ok table ∧ table.assemble q.format q.gaps = .ok frame
  /-- The frame that comes with an error has no fields. -/
  empty_of_error : o.error ≠ none → o.frame.name = Frame.responseName ∧ o.frame.fields = []
  /-- If the statement fails, the error says so and tells the statement. -/
  execution : ∀ q e, ExpandedQuery.ofRequest d request = .ok q → q.Fails x cancelled e →
    ∃ err, o.error = some err ∧ err.kind = .execution ∧
      err.message = "query execution: failed to query [" ++ q.sql ++ "]: " ++ e.message
  /-- No other stage says so. -/
  fails_of_execution : ∀ err, o.error = some err → err.kind = .execution →
    ∃ q e, ExpandedQuery.ofRequest d request = .ok q ∧ q.Fails x cancelled e
  /-- A fault is an error with its text. -/
  fault : ∀ text, request.Faults x d cancelled text →
    ∃ err, o.error = some err ∧ err.kind = .internalFault ∧ err.message = "panic: " ++ text
  /-- No other stage gives one. -/
  faults_of_fault : ∀ err, o.error = some err → err.kind = .internalFault →
    ∃ text, request.Faults x d cancelled text

variable {request : QueryRequest} {x : Executor} {d : Dialect} {cancelled : Bool}

theorem Contained.fields_of_error {o : QueryOutput} (h : request.Contained x d cancelled o)
    {err : QueryError} (herr : o.error = some err) : o.frame.fields = [] := by
  refine (h.empty_of_error ?_).2
  rw [herr]
  exact Option.some_ne_none err

/-- An output is made of one of the ends. -/
theorem exists_ends {o : QueryOutput} (h : (request.run x d cancelled).output = .done o) :
    ∃ r, request.Ends x d cancelled r ∧
      o = .ofResult request.format ((request.sql? d).getD "") r := by
  unfold run at h
  unfold sql?
  cases hq : ExpandedQuery.ofRequest d request with
  | error e =>
    rw [hq] at h
    cases h
    exact ⟨.error e, .unexpanded hq, rfl⟩
  | ok q =>
    rw [hq] at h
    dsimp only at h
    cases hexecute : q.execute x cancelled with
    | waiting =>
      rw [hexecute] at h
      cases h
    | done result =>
      rw [hexecute] at h
      cases h
      cases result with
      | error e => exact ⟨.error e, .unread hq hexecute, rfl⟩
      | ok table => exact ⟨q.toFrame table, .read hq hexecute rfl, rfl⟩

theorem toFrame_eq_ok_iff {q : ExpandedQuery} {table : Table} {frame : Frame} :
    q.toFrame table = .ok frame ↔ table.assemble q.format q.gaps = .ok frame := by
  unfold ExpandedQuery.toFrame
  cases table.assemble q.format q.gaps <;> simp

/-- A frame is made exactly if every stage succeeds. -/
theorem Ends.ok_iff {r : Except QueryError Frame} (h : request.Ends x d cancelled r) :
    (∃ frame, r = .ok frame) ↔ ∃ q result table frame,
      ExpandedQuery.ofRequest d request = .ok q ∧ x.reply cancelled q.sql = .rows result ∧
        Table.ofResult result = .ok table ∧ table.assemble q.format q.gaps = .ok frame := by
  constructor
  · rintro ⟨frame, rfl⟩
    cases h with
    | read hq hexecute hr =>
      obtain ⟨result, hreply, hresult⟩ := ExpandedQuery.execute_eq_ok_iff.mp hexecute
      exact ⟨_, result, _, frame, hq, hreply, hresult, toFrame_eq_ok_iff.mp hr⟩
  · rintro ⟨q, result, table, frame, hq, hreply, hresult, hframe⟩
    have hexecute := ExpandedQuery.execute_eq_ok_iff.mpr ⟨result, hreply, hresult⟩
    cases h with
    | unexpanded h =>
      rw [hq] at h
      cases h
    | unread hq' h =>
      cases hq.symm.trans hq'
      cases hexecute.symm.trans h
    | read hq' h hr =>
      cases hq.symm.trans hq'
      cases hexecute.symm.trans h
      exact ⟨frame, hr.symm.trans (toFrame_eq_ok_iff.mpr hframe)⟩

/-- A statement that fails, or is not answered because of a fault, ends the query. -/
theorem Ends.of_execute {r : Except QueryError Frame} (h : request.Ends x d cancelled r)
    {q : ExpandedQuery} {err : QueryError} (hq : ExpandedQuery.ofRequest d request = .ok q)
    (hexecute : q.execute x cancelled = .done (.error err)) : r = .error err := by
  cases h with
  | unexpanded h =>
    rw [hq] at h
    cases h
  | unread hq' h =>
    cases hq.symm.trans hq'
    cases hexecute.symm.trans h
    rfl
  | read hq' h =>
    cases hq.symm.trans hq'
    cases hexecute.symm.trans h

/-- A fault ends the query with its text. -/
theorem Ends.of_faults {r : Except QueryError Frame} (h : request.Ends x d cancelled r)
    {text : String} (hfault : request.Faults x d cancelled text) : r = .error (.fault text) := by
  cases hfault with
  | executing hq hfault => exact h.of_execute hq (ExpandedQuery.execute_of_faults hfault)
  | assembling hq hreply hresult hfills hfar =>
    have hexecute := ExpandedQuery.execute_eq_ok_iff.mpr ⟨_, hreply, hresult⟩
    cases h with
    | unexpanded h => cases hq.symm.trans h
    | unread hq' h =>
      cases hq.symm.trans hq'
      cases hexecute.symm.trans h
    | read hq' h hr =>
      cases hq.symm.trans hq'
      cases hexecute.symm.trans h
      exact hr.symm.trans
        (ExpandedQuery.toFrame_of_overflows (Table.length_of_ofResult hresult) hfills hfar)
  | expanding hexpand =>
    have herror := ExpandedQuery.ofRequest_of_expanding hexpand
    cases h with
    | unexpanded h =>
      cases herror.symm.trans h
      rfl
    | unread hq => cases herror.symm.trans hq
    | read hq => cases herror.symm.trans hq

/-- An error is that of a statement that fails, or of a fault, or of another kind. -/
theorem Ends.error {err : QueryError} (h : request.Ends x d cancelled (.error err)) :
    (∃ q e, ExpandedQuery.ofRequest d request = .ok q ∧ q.Fails x cancelled e ∧
      err = .execution q.sql e) ∨
      (∃ text, request.Faults x d cancelled text ∧ err = .fault text) ∨ err.IsOther := by
  cases h with
  | unexpanded h => exact .inr (ExpandedQuery.ofRequest_eq_error h)
  | unread hq h =>
    rcases ExpandedQuery.execute_eq_error h with ⟨e, hfails, he⟩ | ⟨text, hfault, he⟩ | hother
    · exact .inl ⟨_, e, hq, hfails, he⟩
    · exact .inr (.inl ⟨text, .executing hq hfault, he⟩)
    · exact .inr (.inr hother)
  | read hq h hr =>
    obtain ⟨result, hreply, hresult⟩ := ExpandedQuery.execute_eq_ok_iff.mp h
    rcases ExpandedQuery.toFrame_eq_error (Table.length_of_ofResult hresult) hr with
      ⟨hfills, hfar, he⟩ | hother
    · exact .inr (.inl ⟨_, .assembling hq hreply hresult hfills hfar, he⟩)
    · exact .inr (.inr hother)

/-- The output of an end is what it has to be. -/
theorem Ends.contained {r : Except QueryError Frame} (h : request.Ends x d cancelled r) :
    request.Contained x d cancelled (.ofResult request.format ((request.sql? d).getD "") r) where
  note := by cases r <;> rfl
  error_eq_none_iff := by
    rw [← h.ok_iff]
    cases r <;> simp [QueryOutput.ofResult]
  empty_of_error hne := by
    cases r with
    | ok frame => exact absurd rfl hne
    | error e => exact ⟨rfl, rfl⟩
  execution q e hq hfails := by
    rw [h.of_execute hq (ExpandedQuery.execute_of_fails hfails)]
    exact ⟨_, rfl, rfl, rfl⟩
  fails_of_execution err herr hkind := by
    cases r with
    | ok frame => cases herr
    | error e =>
      cases herr
      rcases h.error with ⟨q, e, hq, hfails, -⟩ | ⟨text, -, rfl⟩ | hother
      · exact ⟨q, e, hq, hfails⟩
      · cases hkind
      · exact absurd hkind hother.1
  fault text hfault := by
    rw [h.of_faults hfault]
    exact ⟨_, rfl, rfl, rfl⟩
  faults_of_fault err herr hkind := by
    cases r with
    | ok frame => cases herr
    | error e =>
      cases herr
      rcases h.error with ⟨q, e, -, -, rfl⟩ | ⟨text, hfault, -⟩ | hother
      · cases hkind
      · exact ⟨text, hfault⟩
      · exact absurd hkind hother.2

/-- The executor is given the statement of the query and nothing else: what it would
answer to others does not matter. -/
theorem run_congr {x' : Executor}
    (h : ∀ sql ∈ (request.run x d cancelled).executed,
      x'.reply cancelled sql = x.reply cancelled sql) :
    request.run x' d cancelled = request.run x d cancelled := by
  unfold run at h ⊢
  cases hq : ExpandedQuery.ofRequest d request with
  | error e => rfl
  | ok q =>
    rw [hq] at h
    dsimp only
    rw [ExpandedQuery.execute, ExpandedQuery.execute, h q.sql List.mem_cons_self]

theorem executed_run : (request.run x d cancelled).executed = (request.sql? d).toList := by
  unfold run sql?
  cases ExpandedQuery.ofRequest d request <;> rfl

theorem output_eq_waiting_iff :
    (request.run x d cancelled).output = .waiting ↔
      ∃ q, ExpandedQuery.ofRequest d request = .ok q ∧ x.reply cancelled q.sql = .waiting := by
  unfold run
  cases hq : ExpandedQuery.ofRequest d request with
  | error e => simp
  | ok q =>
    simp only [Except.ok.injEq, exists_eq_left', ← ExpandedQuery.execute_eq_waiting_iff]
    cases q.execute x cancelled <;> simp

/-- Whatever a query asks and its executor does, the run ends with an output that is what
it has to be, unless the executor waits.  The executor is given the expanded statement
once, or nothing if the query cannot be expanded. -/
theorem run_contained (request : QueryRequest) (x : Executor) (d : Dialect) (cancelled : Bool) :
    (request.run x d cancelled).executed = (request.sql? d).toList ∧
      (∀ x' : Executor, (∀ sql ∈ (request.run x d cancelled).executed,
        x'.reply cancelled sql = x.reply cancelled sql) →
          request.run x' d cancelled = request.run x d cancelled) ∧
      ((request.run x d cancelled).output = .waiting ↔
        ∃ q, ExpandedQuery.ofRequest d request = .ok q ∧ x.reply cancelled q.sql = .waiting) ∧
      ∀ o, (request.run x d cancelled).output = .done o →
        request.Contained x d cancelled o := by
  refine ⟨executed_run, fun x' => run_congr, output_eq_waiting_iff, fun o ho => ?_⟩
  obtain ⟨r, hends, rfl⟩ := exists_ends ho
  exact hends.contained

/-- A query of one column. -/
def oneColumn : QueryRequest :=
  ⟨"A", "SELECT v", ⟨.near 0 0, .near 60 0⟩, Span.zero, .timeseries⟩

theorem ofRequest_oneColumn (d : Dialect) :
    ExpandedQuery.ofRequest d oneColumn =
      .ok ⟨"SELECT v", .timeseries, .fresh oneColumn.range Span.zero⟩ := by
  have hpieces : Piece.ofText "SELECT v".toList = "SELECT v".toList.map .char := by
    simp [Piece.ofText]
  rw [ExpandedQuery.ofRequest, Expansion.expand, oneColumn, hpieces]
  rfl

/-- An executor whose cursors fail after the first row. -/
def failingAfterRow : Executor where
  answer _ := .rows ⟨[⟨"v", .kind .integer⟩], ⟨[[.int 1]], some (.scan "page is corrupt")⟩⟩

/-- A query whose text is one call for buckets, of which the missing ones are to be null. -/
def byWidth (width : String) : QueryRequest :=
  ⟨"A", "$__timeGroup(t," ++ width ++ ",null)", ⟨.near 0 0, .near 60 0⟩, Span.zero, .timeseries⟩

theorem ofText_byWidth {width : String}
    (h : Call.read? ("__timeGroup(t," ++ width ++ ",null)").toList =
      some (⟨"__timeGroup".toList, ("t," ++ width ++ ",null").toList⟩, [])) :
    Piece.ofText (byWidth width).raw.toList =
      [.call ⟨"__timeGroup".toList, ("t," ++ width ++ ",null").toList⟩] := by
  have hraw : (byWidth width).raw.toList =
      '$' :: ("__timeGroup(t," ++ width ++ ",null)").toList := by
    simp [byWidth]
  rw [hraw, Piece.ofText_of_read? h, Piece.ofText]

/-- An executor that answers with one bucket. -/
def oneBucket : Executor where
  answer _ := .rows ⟨[⟨"time", .kind .timestamp⟩, ⟨"v", .kind .integer⟩],
    ⟨[[.timestamp (.near 60 0), .int 1]], none⟩⟩

/-- It is a wide series. -/
theorem exists_fills_oneBucket (sql : String) {gaps : GapFill} (hpolicy : gaps.policy ≠ none) :
    ∃ result t, oneBucket.reply false sql = .rows result ∧ Table.ofResult result = .ok t ∧
      t.Fills .timeseries gaps :=
  ⟨_, _, rfl, rfl, rfl, hpolicy, by decide, .inl (by decide)⟩

/-- The greatest width, in a range that starts a minute before 1970. -/
def byWidthBeforeEpoch : QueryRequest :=
  { byWidth "9223372036854775807s" with range := ⟨.near (-60) 0, .near 60 0⟩ }

theorem ofRequest_byWidthBeforeEpoch : ∃ q,
    ExpandedQuery.ofRequest .snowflake byWidthBeforeEpoch = .ok q ∧ q.format = .timeseries ∧
      q.gaps = ⟨byWidthBeforeEpoch.range, Fill.greatestWidth, some .null⟩ := by
  have hpieces := @ofText_byWidth "9223372036854775807s" (by decide)
  rw [ExpandedQuery.ofRequest, Expansion.expand, byWidthBeforeEpoch, hpieces]
  exact ⟨_, rfl, rfl, rfl⟩

/-- The failure of the cursor is told, with the statement.  The buckets that are too far from the
end of the range are a fault. -/
theorem run_contained_failingAfterRow :
    (∃ o err, (oneColumn.run failingAfterRow .snowflake false).output = .done o ∧
      o.error = some err ∧ err.kind = .execution ∧ o.frame.fields = [] ∧
      err.message =
        "query execution: failed to query [SELECT v]: Failed to scan row: page is corrupt") ∧
    ∃ o err, (byWidthBeforeEpoch.run oneBucket .snowflake false).output = .done o ∧
      o.error = some err ∧ err.kind = .internalFault ∧ o.frame.fields = [] ∧
      err.message = "panic: attempt to subtract with overflow" := by
  constructor
  · have hq := ofRequest_oneColumn .snowflake
    obtain ⟨o, ho⟩ : ∃ o, (oneColumn.run failingAfterRow .snowflake false).output = .done o := by
      rw [run, hq]
      exact ⟨_, rfl⟩
    have hcontained := (run_contained oneColumn failingAfterRow .snowflake false).2.2.2 o ho
    obtain ⟨err, herr, hkind, hmessage⟩ := hcontained.execution _ _ hq (.aborted rfl rfl rfl)
    exact ⟨o, err, ho, herr, hkind, hcontained.fields_of_error herr, hmessage⟩
  · obtain ⟨q, hq, hformat, hgaps⟩ := ofRequest_byWidthBeforeEpoch
    obtain ⟨o, ho⟩ : ∃ o, (byWidthBeforeEpoch.run oneBucket .snowflake false).output = .done o := by
      rw [run, hq]
      exact ⟨_, rfl⟩
    have hcontained := (run_contained byWidthBeforeEpoch oneBucket .snowflake false).2.2.2 o ho
    have hpolicy : q.gaps.policy ≠ none := by
      rw [hgaps]
      exact Option.some_ne_none _
    have hfar : q.gaps.Overflows := by
      rw [hgaps]
      decide
    obtain ⟨result, t, hreply, ht, hfills⟩ := exists_fills_oneBucket q.sql hpolicy
    rw [← hformat] at hfills
    obtain ⟨err, herr, hkind, hmessage⟩ :=
      hcontained.fault _ (.assembling hq hreply ht hfills hfar)
    exact ⟨o, err, ho, herr, hkind, hcontained.fields_of_error herr, hmessage⟩

end QueryRequest

end SeriesQuery
