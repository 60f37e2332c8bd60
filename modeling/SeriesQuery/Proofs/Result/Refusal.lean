import SeriesQuery.Proofs.Result.Reading

/-!
# Which error a result is refused with

A result can be refused for three reasons: a column of it has no kind, a value does not fit its
column, or a row cannot be fetched.  The first of them in the order of reading counts
(`ofResult_refuses_first`).  Columns are looked at before any row is fetched, then row by row, and
the values of a row column by column.  Nothing is fetched after that.

To say how often something is fetched, rows come here from any source that fetches them into
slots (`RowSource`), which need not have an end.  `RowSource.Builds` is the reading as it goes
on, fetch by fetch, and counts them.  `RowSource.Refuses` is the first reason in the order of
reading.  It looks at rows that are fetched into blank slots, because the slots are blank again
when a row has been appended (`Table.appendSlots_of_takes`).

A cursor is such a source, and its rows are read by `Table.ofResult` as by any other
(`ofResult_eq_iff`).
-/

namespace SeriesQuery

/-- Something that rows are fetched from, each into slots. -/
structure RowSource (σ : Type) where
  /-- Fetches a row into slots: gives the slots and what is left of the source, or nothing at the
  end. -/
  fetch : σ → List Scalar → Except ExecutionError (Option (List Scalar × σ))
  length_fetch : ∀ {s left : σ} {slots row : List Scalar},
    fetch s slots = .ok (some (row, left)) → row.length = slots.length

theorem Cursor.length_fetch {c left : Cursor} {slots row : List Scalar}
    (h : c.fetch slots = .ok (some (row, left))) : row.length = slots.length := by
  obtain ⟨_ | ⟨values, rows⟩, failure⟩ := c
  · cases failure <;> cases h
  · cases h
    exact Row.length_write values slots

/-- A cursor as a source of rows. -/
def Cursor.source : RowSource Cursor := ⟨Cursor.fetch, Cursor.length_fetch⟩

/-! ## The reading of a result -/

namespace RowSource

variable {σ : Type}

/-- Rows are fetched and appended to columns.  This ends after some fetches, because the rows end,
because a fetch fails or because a row cannot be appended. -/
inductive Reads (src : RowSource σ) : σ → List TableColumn → List Scalar → Nat →
    Except TableError (List TableColumn) → Prop where
  | finished {s : σ} {columns : List TableColumn} {slots : List Scalar}
      (fetched : src.fetch s slots = .ok none) : Reads src s columns slots 1 (.ok columns)
  | failed {s : σ} {columns : List TableColumn} {slots : List Scalar} {e : ExecutionError}
      (fetched : src.fetch s slots = .error e) :
      Reads src s columns slots 1 (.error (.scan e))
  | refused {s left : σ} {columns : List TableColumn} {slots row : List Scalar}
      {e : TableError} (fetched : src.fetch s slots = .ok (some (row, left)))
      (appended : Table.appendSlots columns row = .error e) :
      Reads src s columns slots 1 (.error e)
  | row {s left : σ} {columns columns' : List TableColumn} {slots row slots' : List Scalar}
      {count : Nat} {r : Except TableError (List TableColumn)}
      (fetched : src.fetch s slots = .ok (some (row, left)))
      (appended : Table.appendSlots columns row = .ok (columns', slots'))
      (rest : Reads src left columns' slots' count r) :
      Reads src s columns slots (count + 1) r

/-- A table is made of the rows of a source, with some fetches, or the result is refused. -/
inductive Builds (src : RowSource σ) (heads : List ColumnHead) (s : σ) :
    Nat → Except TableError Table → Prop where
  | unsupported {e : TableError} (declared : Table.emptyColumns heads = .error e) :
      Builds src heads s 0 (.error e)
  | refused {columns : List TableColumn} {count : Nat} {e : TableError}
      (declared : Table.emptyColumns heads = .ok columns)
      (rows : src.Reads s columns (blankSlots columns.length) count (.error e)) :
      Builds src heads s count (.error e)
  | built {columns columns' : List TableColumn} {count : Nat}
      (declared : Table.emptyColumns heads = .ok columns)
      (rows : src.Reads s columns (blankSlots columns.length) count (.ok columns')) :
      Builds src heads s count (.ok ⟨columns'⟩)

end RowSource

/-! ## The first reason in the order of reading -/

namespace ColumnHead

/-- The column has a kind. -/
def Supported (head : ColumnHead) : Prop := ∃ k, head.kind = .kind k

/-- The column takes a value: a null, or one that its kind takes. -/
def Takes (head : ColumnHead) (v : Scalar) : Prop :=
  v = .null ∨ ∃ k x, head.kind = .kind k ∧ v.coerce? k = some x

end ColumnHead

/-- A row has a value that its column does not take, and the columns before take theirs. -/
inductive RefusesRow (heads : List ColumnHead) : List Scalar → TableError → Prop where
  | intro {before after : List ColumnHead} {name : String} {k : Kind}
      {values later : List Scalar} {v : Scalar} (split : heads = before ++ ⟨name, .kind k⟩ :: after)
      (first : List.Forall₂ ColumnHead.Takes before values) (not_null : v ≠ .null)
      (not_taken : v.coerce? k = none) :
      RefusesRow heads (values ++ v :: later) (.coercion name v k)

namespace RowSource

variable {σ : Type}

/-- Fetches into blank slots give these rows one after the other. -/
inductive Delivers (src : RowSource σ) (width : Nat) :
    σ → List (List Scalar) → σ → Prop where
  | nil (s : σ) : Delivers src width s [] s
  | cons {s between left : σ} {row : List Scalar} {rows : List (List Scalar)}
      (fetched : src.fetch s (blankSlots width) = .ok (some (row, between)))
      (rest : Delivers src width between rows left) : Delivers src width s (row :: rows) left

/-- The next fetch fails, or it gives a row with a value that its column does not take. -/
inductive Stops (src : RowSource σ) (heads : List ColumnHead) (s : σ) : TableError → Prop where
  | value {row : List Scalar} {left : σ} {e : TableError}
      (fetched : src.fetch s (blankSlots heads.length) = .ok (some (row, left)))
      (refuses : RefusesRow heads row e) : Stops src heads s e
  | scan {e : ExecutionError} (fetched : src.fetch s (blankSlots heads.length) = .error e) :
      Stops src heads s (.scan e)

/-- The first reason to refuse a result, and after how many fetches it is met: a column without a
kind, or what comes behind rows whose values the columns take. -/
inductive Refuses (src : RowSource σ) (heads : List ColumnHead) (s : σ) :
    Nat → TableError → Prop where
  | unsupported {before after : List ColumnHead} {name typeName : String}
      (split : heads = before ++ ⟨name, .unsupported typeName⟩ :: after)
      (first : ∀ head ∈ before, head.Supported) :
      Refuses src heads s 0 (.unsupportedType name typeName)
  | behind {rows : List (List Scalar)} {left : σ} {e : TableError}
      (supported : ∀ head ∈ heads, head.Supported)
      (delivers : src.Delivers heads.length s rows left)
      (takes : ∀ row ∈ rows, List.Forall₂ ColumnHead.Takes heads row)
      (stops : src.Stops heads left e) : Refuses src heads s (rows.length + 1) e

end RowSource

/-! ## Columns -/

/-- The column stands for a head. -/
structure TableColumn.Declared (head : ColumnHead) (c : TableColumn) : Prop where
  name : c.name = head.name
  kind : head.kind = .kind c.column.kind

open ColumnHead

namespace Table

theorem exists_declared {heads : List ColumnHead} (h : ∀ head ∈ heads, head.Supported) :
    ∃ columns, emptyColumns heads = .ok columns ∧
      List.Forall₂ TableColumn.Declared heads columns := by
  induction heads with
  | nil => exact ⟨[], rfl, .nil⟩
  | cons head heads ih =>
    obtain ⟨hhead, hheads⟩ := List.forall_mem_cons.mp h
    obtain ⟨columns, hok, hcolumns⟩ := ih hheads
    obtain ⟨name, kind⟩ := head
    obtain ⟨k, rfl⟩ := hhead
    refine ⟨⟨name, .empty k⟩ :: columns, ?_, .cons ⟨rfl, rfl⟩ hcolumns⟩
    rw [emptyColumns, hok]
    rfl

/-- The first column without a kind is the error. -/
theorem emptyColumns_of_unsupported {before after : List ColumnHead} {name typeName : String}
    (h : ∀ head ∈ before, head.Supported) :
    emptyColumns (before ++ ⟨name, .unsupported typeName⟩ :: after) =
      .error (.unsupportedType name typeName) := by
  induction before with
  | nil => rfl
  | cons head before ih =>
    obtain ⟨hhead, hbefore⟩ := List.forall_mem_cons.mp h
    obtain ⟨other, kind⟩ := head
    obtain ⟨k, rfl⟩ := hhead
    rw [List.cons_append, emptyColumns, ih hbefore]
    rfl

theorem append_of_takes {head : ColumnHead} {c : TableColumn} {v : Scalar}
    (hc : TableColumn.Declared head c) (h : head.Takes v) :
    ∃ c', c.append v = .ok c' ∧ TableColumn.Declared head c' := by
  have hcell : ∃ cell, Scalar.cell? c.column.kind (some v) = some cell := by
    rcases h with hnull | ⟨k, x, hk, hx⟩
    · exact ⟨none, if_pos hnull⟩
    · cases hc.kind.symm.trans hk
      by_cases hnull : v = .null
      · exact ⟨none, if_pos hnull⟩
      · exact ⟨some x, by rw [Scalar.cell?, if_neg hnull, hx]; rfl⟩
  obtain ⟨cell, hcell⟩ := hcell
  exact ⟨c.extend [cell], TableColumn.append_eq_ok_iff.mpr ⟨cell, hcell, rfl⟩, hc.name, hc.kind⟩

/-- A row that the columns take is appended, and the slots are blank then. -/
theorem appendSlots_of_takes {heads : List ColumnHead} {columns : List TableColumn}
    {row : List Scalar} (hcolumns : List.Forall₂ TableColumn.Declared heads columns)
    (h : List.Forall₂ Takes heads row) :
    ∃ columns', appendSlots columns row = .ok (columns', blankSlots heads.length) ∧
      List.Forall₂ TableColumn.Declared heads columns' := by
  induction h generalizing columns with
  | nil =>
    cases hcolumns
    exact ⟨[], rfl, .nil⟩
  | cons hvalue _ ih =>
    cases hcolumns with
    | cons hc hcolumns =>
      obtain ⟨c', happend, hc'⟩ := append_of_takes hc hvalue
      obtain ⟨columns', hrest, hcolumns'⟩ := ih hcolumns
      refine ⟨c' :: columns', ?_, .cons hc' hcolumns'⟩
      rw [appendSlots, happend]
      dsimp only
      rw [hrest]
      rfl

/-- A row is not appended if a value is not taken, and the first of these is the error. -/
theorem appendSlots_of_refusesRow {heads : List ColumnHead} {columns : List TableColumn}
    {row : List Scalar} {e : TableError}
    (hcolumns : List.Forall₂ TableColumn.Declared heads columns) (h : RefusesRow heads row e) :
    appendSlots columns row = .error e := by
  obtain @⟨before, after, name, k, values, later, v, rfl, hfirst, hnull, htaken⟩ := h
  induction hfirst generalizing columns with
  | nil =>
    cases hcolumns with
    | @cons _ c _ _ hc _ =>
      obtain ⟨rfl, hkind⟩ := hc
      cases hkind
      have happend : c.append v = .error (.coercion c.name v c.column.kind) := by
        rw [TableColumn.append, if_neg hnull, htaken]
      rw [List.nil_append, appendSlots, happend]
  | cons hvalue _ ih =>
    cases hcolumns with
    | cons hc hcolumns =>
      obtain ⟨c', happend, -⟩ := append_of_takes hc hvalue
      rw [List.cons_append, appendSlots, happend]
      dsimp only
      rw [ih hcolumns]

end Table

theorem RefusesRow.cons {head : ColumnHead} {heads : List ColumnHead} {v : Scalar}
    {row : List Scalar} {e : TableError} (hvalue : head.Takes v) (h : RefusesRow heads row e) :
    RefusesRow (head :: heads) (v :: row) e := by
  obtain @⟨before, after, name, k, values, later, u, rfl, hfirst, hnull, htaken⟩ := h
  have hsplit : head :: (before ++ ⟨name, .kind k⟩ :: after) =
      (head :: before) ++ ⟨name, .kind k⟩ :: after := rfl
  exact .intro hsplit (.cons hvalue hfirst) hnull htaken

/-- All columns have kinds, or there is a first one without. -/
theorem supported_or_unsupported (heads : List ColumnHead) :
    (∀ head ∈ heads, head.Supported) ∨ ∃ before name typeName after,
      heads = before ++ ⟨name, .unsupported typeName⟩ :: after ∧
        ∀ head ∈ before, head.Supported := by
  induction heads with
  | nil => exact .inl nofun
  | cons head heads ih =>
    obtain ⟨name, k | typeName⟩ := head
    · have hhead : Supported ⟨name, .kind k⟩ := ⟨k, rfl⟩
      rcases ih with hheads | ⟨before, other, typeName, after, rfl, hbefore⟩
      · exact .inl (List.forall_mem_cons.mpr ⟨hhead, hheads⟩)
      · exact .inr ⟨⟨name, .kind k⟩ :: before, other, typeName, after, rfl,
          List.forall_mem_cons.mpr ⟨hhead, hbefore⟩⟩
    · exact .inr ⟨[], name, typeName, heads, rfl, nofun⟩

/-- The columns take a row, or there is a first value that is not taken. -/
theorem takes_or_refusesRow {heads : List ColumnHead} {row : List Scalar}
    (hsupported : ∀ head ∈ heads, head.Supported) (hlength : row.length = heads.length) :
    List.Forall₂ Takes heads row ∨ ∃ e, RefusesRow heads row e := by
  induction heads generalizing row with
  | nil =>
    obtain rfl := List.eq_nil_of_length_eq_zero hlength
    exact .inl .nil
  | cons head heads ih =>
    obtain ⟨v, row, rfl⟩ := List.exists_cons_of_length_eq_add_one hlength
    obtain ⟨hhead, hheads⟩ := List.forall_mem_cons.mp hsupported
    by_cases hvalue : head.Takes v
    · rcases ih hheads (Nat.succ.inj hlength) with hrow | ⟨e, hrow⟩
      · exact .inl (.cons hvalue hrow)
      · exact .inr ⟨e, hrow.cons hvalue⟩
    · obtain ⟨name, kind⟩ := head
      obtain ⟨k, rfl⟩ := hhead
      rw [Takes, not_or] at hvalue
      have hsplit : ⟨name, .kind k⟩ :: heads = [] ++ ⟨name, .kind k⟩ :: heads := rfl
      refine .inr ⟨_, .intro hsplit .nil hvalue.1 ?_⟩
      rw [Option.eq_none_iff_forall_ne_some]
      exact fun x hx => hvalue.2 ⟨k, x, rfl, hx⟩

/-! ## Rows -/

namespace RowSource

variable {σ : Type} {src : RowSource σ} {heads : List ColumnHead} {s left : σ}
  {columns : List TableColumn} {count : Nat} {e : TableError}

/-- The reading of rows ends with an error behind rows that the columns take. -/
theorem Reads.stops {slots : List Scalar} {r : Except TableError (List TableColumn)}
    (hsupported : ∀ head ∈ heads, head.Supported)
    (hcolumns : List.Forall₂ TableColumn.Declared heads columns)
    (hslots : slots = blankSlots heads.length) (h : src.Reads s columns slots count r)
    (hr : r = .error e) :
    ∃ rows left, src.Delivers heads.length s rows left ∧
      (∀ row ∈ rows, List.Forall₂ Takes heads row) ∧ src.Stops heads left e ∧
        count = rows.length + 1 := by
  induction h with
  | finished => cases hr
  | failed fetched =>
    cases hr
    subst hslots
    exact ⟨[], _, .nil _, nofun, .scan fetched, rfl⟩
  | refused fetched appended =>
    cases hr
    subst hslots
    have hlength := (src.length_fetch fetched).trans (length_blankSlots _)
    rcases takes_or_refusesRow hsupported hlength with hrow | ⟨e', hrow⟩
    · obtain ⟨columns', hok, -⟩ := Table.appendSlots_of_takes hcolumns hrow
      cases hok.symm.trans appended
    · cases (Table.appendSlots_of_refusesRow hcolumns hrow).symm.trans appended
      exact ⟨[], _, .nil _, nofun, .value fetched hrow, rfl⟩
  | row fetched appended _ ih =>
    subst hslots
    have hlength := (src.length_fetch fetched).trans (length_blankSlots _)
    rcases takes_or_refusesRow hsupported hlength with hrow | ⟨e', hrow⟩
    · obtain ⟨columns', hok, hcolumns'⟩ := Table.appendSlots_of_takes hcolumns hrow
      cases hok.symm.trans appended
      obtain ⟨rows, left, hdelivers, htakes, hstops, rfl⟩ := ih hcolumns' rfl hr
      exact ⟨_ :: rows, left, .cons fetched hdelivers, List.forall_mem_cons.mpr ⟨hrow, htakes⟩,
        hstops, rfl⟩
    · cases (Table.appendSlots_of_refusesRow hcolumns hrow).symm.trans appended

theorem Delivers.reads {rows : List (List Scalar)}
    (hcolumns : List.Forall₂ TableColumn.Declared heads columns)
    (h : src.Delivers heads.length s rows left)
    (htakes : ∀ row ∈ rows, List.Forall₂ Takes heads row) (hstops : src.Stops heads left e) :
    src.Reads s columns (blankSlots heads.length) (rows.length + 1) (.error e) := by
  induction h generalizing columns with
  | nil s =>
    cases hstops with
    | value fetched hrow => exact .refused fetched (Table.appendSlots_of_refusesRow hcolumns hrow)
    | scan fetched => exact .failed fetched
  | cons fetched _ ih =>
    obtain ⟨hrow, htakes⟩ := List.forall_mem_cons.mp htakes
    obtain ⟨columns', happend, hcolumns'⟩ := Table.appendSlots_of_takes hcolumns hrow
    exact .row fetched happend (ih hcolumns' htakes hstops)

/-- A result is refused for the first reason in the order of reading, and nothing is fetched
after that. -/
theorem builds_error_iff : src.Builds heads s count (.error e) ↔ src.Refuses heads s count e := by
  constructor
  · intro h
    rcases supported_or_unsupported heads with
      hsupported | ⟨before, name, typeName, after, rfl, hbefore⟩
    · obtain ⟨columns, hdeclared, hcolumns⟩ := Table.exists_declared hsupported
      cases h with
      | unsupported h => cases hdeclared.symm.trans h
      | refused h hrows =>
        cases hdeclared.symm.trans h
        obtain ⟨rows, left, hdelivers, htakes, hstops, rfl⟩ :=
          hrows.stops hsupported hcolumns (by rw [hcolumns.length_eq]) rfl
        exact .behind hsupported hdelivers htakes hstops
    · have hdeclared : Table.emptyColumns (before ++ ⟨name, .unsupported typeName⟩ :: after) =
          .error (.unsupportedType name typeName) := Table.emptyColumns_of_unsupported hbefore
      cases h with
      | unsupported h =>
        cases hdeclared.symm.trans h
        exact .unsupported rfl hbefore
      | refused h => cases hdeclared.symm.trans h
  · intro h
    cases h with
    | unsupported split first =>
      subst split
      exact .unsupported (Table.emptyColumns_of_unsupported first)
    | behind supported delivers takes stops =>
      obtain ⟨columns, hdeclared, hcolumns⟩ := Table.exists_declared supported
      have hrows := delivers.reads hcolumns takes stops
      rw [hcolumns.length_eq] at hrows
      exact .refused hdeclared hrows

/-! ## What one fetch decides -/

theorem reads_iff_of_end {slots : List Scalar} {r : Except TableError (List TableColumn)}
    (h : src.fetch s slots = .ok none) :
    (∃ count, src.Reads s columns slots count r) ↔ .ok columns = r := by
  constructor
  · rintro ⟨_, hreads⟩
    cases hreads with
    | finished => rfl
    | failed fetched => cases h.symm.trans fetched
    | refused fetched => cases h.symm.trans fetched
    | row fetched => cases h.symm.trans fetched
  · rintro rfl
    exact ⟨1, .finished h⟩

theorem reads_iff_of_error {slots : List Scalar} {r : Except TableError (List TableColumn)}
    {e : ExecutionError} (h : src.fetch s slots = .error e) :
    (∃ count, src.Reads s columns slots count r) ↔ .error (.scan e) = r := by
  constructor
  · rintro ⟨_, hreads⟩
    cases hreads with
    | finished fetched => cases h.symm.trans fetched
    | failed fetched =>
      cases h.symm.trans fetched
      rfl
    | refused fetched => cases h.symm.trans fetched
    | row fetched => cases h.symm.trans fetched
  · rintro rfl
    exact ⟨1, .failed h⟩

theorem reads_iff_of_row {slots row : List Scalar} {r : Except TableError (List TableColumn)}
    (h : src.fetch s slots = .ok (some (row, left))) :
    (∃ count, src.Reads s columns slots count r) ↔
      match Table.appendSlots columns row with
      | .error e => .error e = r
      | .ok (columns', slots') => ∃ count, src.Reads left columns' slots' count r := by
  constructor
  · rintro ⟨_, hreads⟩
    cases hreads with
    | finished fetched => cases h.symm.trans fetched
    | failed fetched => cases h.symm.trans fetched
    | refused fetched appended =>
      cases h.symm.trans fetched
      rw [appended]
    | row fetched appended rest =>
      cases h.symm.trans fetched
      rw [appended]
      exact ⟨_, rest⟩
  · intro hrest
    cases happend : Table.appendSlots columns row with
    | error e =>
      rw [happend] at hrest
      cases hrest
      exact ⟨1, .refused h happend⟩
    | ok appended =>
      rw [happend] at hrest
      obtain ⟨count, hreads⟩ := hrest
      exact ⟨count + 1, .row h happend hreads⟩

theorem builds_iff_of_declared {r : Except TableError Table}
    (h : Table.emptyColumns heads = .ok columns) :
    (∃ count, src.Builds heads s count r) ↔
      ∃ r', (∃ count, src.Reads s columns (blankSlots columns.length) count r') ∧
        r'.map Table.mk = r := by
  constructor
  · rintro ⟨_, hbuilds⟩
    cases hbuilds with
    | unsupported declared => cases h.symm.trans declared
    | refused declared rows =>
      cases h.symm.trans declared
      exact ⟨_, ⟨_, rows⟩, rfl⟩
    | built declared rows =>
      cases h.symm.trans declared
      exact ⟨_, ⟨_, rows⟩, rfl⟩
  · rintro ⟨e | columns', ⟨count, rows⟩, rfl⟩
    · exact ⟨count, .refused h rows⟩
    · exact ⟨count, .built h rows⟩

end RowSource

/-! ## A cursor as a source -/

namespace Cursor

/-- What the reading of the rows of a cursor into columns comes to. -/
def readInto (c : Cursor) (columns : List TableColumn) (slots : List Scalar) :
    Except TableError (List TableColumn) :=
  match Table.appendRows columns slots c.pending with
  | .error e => .error e
  | .ok columns =>
    match c.failure with
    | some e => .error (.scan e)
    | none => .ok columns

theorem reads_iff {rows : List Row} {failure : Option ExecutionError}
    {columns : List TableColumn} {slots : List Scalar}
    {r : Except TableError (List TableColumn)} :
    (∃ count, source.Reads ⟨rows, failure⟩ columns slots count r) ↔
      readInto ⟨rows, failure⟩ columns slots = r := by
  induction rows generalizing columns slots with
  | nil =>
    cases failure with
    | none => exact RowSource.reads_iff_of_end rfl
    | some e => exact RowSource.reads_iff_of_error rfl
  | cons row rows ih =>
    have hfetch : source.fetch ⟨row :: rows, failure⟩ slots =
        .ok (some (row.write slots, ⟨rows, failure⟩)) := rfl
    rw [RowSource.reads_iff_of_row hfetch, readInto, Table.appendRows]
    cases Table.appendSlots columns (row.write slots) with
    | error e => rfl
    | ok appended => exact ih

end Cursor

namespace Table

/-- A result is read as its cursor is read fetch by fetch. -/
theorem ofResult_eq_iff {heads : List ColumnHead} {c : Cursor} {r : Except TableError Table} :
    ofResult ⟨heads, c⟩ = r ↔ ∃ count, Cursor.source.Builds heads c count r := by
  cases hdeclared : emptyColumns heads with
  | error e =>
    rw [ofResult, ofRows, hdeclared]
    constructor
    · rintro rfl
      exact ⟨0, .unsupported hdeclared⟩
    · rintro ⟨_, h⟩
      cases h with
      | unsupported h =>
        cases hdeclared.symm.trans h
        rfl
      | refused h => cases hdeclared.symm.trans h
      | built h => cases hdeclared.symm.trans h
  | ok columns =>
    have hresult : ofResult ⟨heads, c⟩ =
        (c.readInto columns (blankSlots columns.length)).map Table.mk := by
      rw [ofResult, ofRows, hdeclared, Cursor.readInto]
      dsimp only
      cases appendRows columns (blankSlots columns.length) c.pending with
      | error e => rfl
      | ok columns' => cases c.failure <;> rfl
    rw [hresult, RowSource.builds_iff_of_declared hdeclared]
    simp only [Cursor.reads_iff, exists_eq_left']

/-- A result is refused for the first reason in the order of reading: the first column without a
kind, and then, row by row and column by column, a value that its column does not take, or a
fetch that fails.  Nothing is fetched for a column without a kind, and nothing after the row or
the fetch that is the reason.  This holds of all sources of rows, and a cursor is one.  The value
is told by its column, its type, its text and the declared kind. -/
theorem ofResult_refuses_first (heads : List ColumnHead) :
    (∀ (σ : Type) (src : RowSource σ) (s : σ) (count : Nat) (e : TableError),
      src.Builds heads s count (.error e) ↔ src.Refuses heads s count e) ∧
    (∀ (c : Cursor) (r : Except TableError Table),
      ofResult ⟨heads, c⟩ = r ↔ ∃ count, Cursor.source.Builds heads c count r) ∧
    ∀ (name : String) (v : Scalar) (k : Kind), (TableError.coercion name v k).message =
      "column [" ++ name ++ "]: cannot convert " ++ v.typeName ++ " value [" ++ v.text ++
        "] to " ++ k.name :=
  ⟨fun _ _ _ _ _ => RowSource.builds_error_iff, fun _ _ => ofResult_eq_iff, fun _ _ _ => rfl⟩

/-- The value of the second row counts, not the failure behind the rows. -/
example : ofResult ⟨[⟨"count", .kind .integer⟩, ⟨"host", .kind .string⟩],
      ⟨[[.int 1, .string "a"], [.null, .bool true], [.string "x"]], some .cancelled⟩⟩ =
    .error (.coercion "host" (.bool true) .string) := by
  rfl

end Table

end SeriesQuery
