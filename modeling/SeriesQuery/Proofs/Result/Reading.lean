import Mathlib.Data.List.Forall2
import SeriesQuery.Result.Table

/-!
# What a table holds

The rows of a result are written one after the other into the same slots, and every row
appends one cell to every column.  A row need not fill all slots.  What keeps the value of
an earlier row out of its cells is that the slots are blank before every row: they are so at
first, and appending takes out what a row has written (`appendSlots_ok`).

So the cell of a row in a column depends on what this row wrote into the slot of the column
and on nothing else (`appendRows_ok`).  `TableColumn.Holds` says it of a whole column, and
`ofResult_holds` that a table consists of such columns, and that there is a table whenever
the declared kinds and the values allow it and the cursor does not fail.
-/

namespace SeriesQuery

/-! ## Slots -/

namespace Row

@[simp] theorem length_write (row : Row) (slots : List Scalar) :
    (row.write slots).length = slots.length := by
  induction row generalizing slots with
  | nil => cases slots <;> rfl
  | cons v row ih =>
    cases slots with
    | nil => rfl
    | cons old slots => simp [Row.write, ih]

/-- A slot holds the value that the row has for it, or what it held before. -/
theorem getElem?_write (row : Row) (slots : List Scalar) (j : Nat) :
    (row.write slots)[j]? = slots[j]?.map fun old => row[j]?.getD old := by
  induction row generalizing slots j with
  | nil => cases slots <;> simp [Row.write]
  | cons v row ih =>
    cases slots with
    | nil => simp [Row.write]
    | cons old slots =>
      cases j with
      | zero => simp [Row.write]
      | succ j => simp [Row.write, ih]

end Row

theorem blankSlots_succ (count : Nat) : blankSlots (count + 1) = .null :: blankSlots count :=
  List.replicate_succ

@[simp] theorem length_blankSlots (count : Nat) : (blankSlots count).length = count := by
  simp [blankSlots]

/-- The cell that a slot gives in a column of a kind: null if it holds null or nothing, and
otherwise its value in that kind, if it has one. -/
def Scalar.cell? (k : Kind) : Option Scalar → Option k.Cell
  | none => some none
  | some v => if v = .null then some none else (v.coerce? k).map some

/-- A blank slot gives the same cell as no slot. -/
theorem Scalar.cell?_write (k : Kind) (row : Row) {count j : Nat} (hj : j < count) :
    cell? k (row.write (blankSlots count))[j]? = cell? k row[j]? := by
  have hslot : (blankSlots count)[j]? = some .null := by simp [blankSlots, hj]
  rw [Row.getElem?_write, hslot, Option.map_some]
  cases row[j]? with
  | none => simp [cell?]
  | some v => rfl

/-! ## Appending slots -/

namespace TableColumn

/-- A column with more cells of its kind. -/
def extend (c : TableColumn) (cells : List c.column.kind.Cell) : TableColumn :=
  { c with column := ⟨c.column.kind, c.column.cells ++ cells.toArray⟩ }

@[simp] theorem extend_nil (c : TableColumn) : c.extend [] = c := by
  simp [extend]

theorem extend_extend (c : TableColumn) (cell : c.column.kind.Cell)
    (cells : List c.column.kind.Cell) :
    (c.extend [cell]).extend cells = c.extend (cell :: cells) := by
  have hcells : c.column.cells ++ [cell].toArray ++ cells.toArray =
      c.column.cells ++ (cell :: cells).toArray := by
    apply Array.ext'
    simp
  exact congrArg (fun cells => { c with column := ⟨c.column.kind, cells⟩ }) hcells

/-- A value is appended exactly if its slot gives a cell. -/
theorem append_eq_ok_iff {c c' : TableColumn} {value : Scalar} :
    c.append value = .ok c' ↔
      ∃ cell, Scalar.cell? c.column.kind (some value) = some cell ∧ c' = c.extend [cell] := by
  by_cases hnull : value = .null
  · simp [append, hnull, Scalar.cell?, extend, Column.pushNull, Column.push, eq_comm]
  · cases hvalue : value.coerce? c.column.kind with
    | none => simp [append, hnull, hvalue, Scalar.cell?]
    | some x => simp [append, hnull, hvalue, Scalar.cell?, extend, Column.push, eq_comm]

end TableColumn

namespace Table

/-- Every column takes the cell of its slot, and the slots are blank then. -/
theorem appendSlots_ok {columns columns' : List TableColumn} {slots slots' : List Scalar}
    (hlength : slots.length = columns.length)
    (h : appendSlots columns slots = .ok (columns', slots')) :
    slots' = blankSlots columns.length ∧ columns'.length = columns.length ∧
      ∀ (j : Nat) (c : TableColumn), columns[j]? = some c →
        ∃ cell, Scalar.cell? c.column.kind slots[j]? = some cell ∧
          columns'[j]? = some (c.extend [cell]) := by
  induction columns generalizing slots columns' slots' with
  | nil =>
    obtain rfl := List.eq_nil_of_length_eq_zero hlength
    cases h
    exact ⟨rfl, rfl, fun j c hc => nomatch hc⟩
  | cons c columns ih =>
    cases slots with
    | nil => cases hlength
    | cons value slots =>
      rw [appendSlots] at h
      split at h
      next => cases h
      next c' happend =>
        split at h
        next => cases h
        next hrest =>
          cases h
          obtain ⟨rfl, hcount, hcells⟩ := ih (Nat.succ.inj hlength) hrest
          refine ⟨(blankSlots_succ _).symm, by simp [hcount], ?_⟩
          intro j d hd
          cases j with
          | zero =>
            cases hd
            obtain ⟨cell, hcell, rfl⟩ := TableColumn.append_eq_ok_iff.mp happend
            exact ⟨cell, hcell, rfl⟩
          | succ j => exact hcells j d hd

theorem exists_appendSlots {columns : List TableColumn} {slots : List Scalar}
    (hlength : slots.length = columns.length)
    (h : ∀ (j : Nat) (c : TableColumn), columns[j]? = some c →
      ∃ cell, Scalar.cell? c.column.kind slots[j]? = some cell) :
    ∃ columns' slots', appendSlots columns slots = .ok (columns', slots') := by
  induction columns generalizing slots with
  | nil => exact ⟨[], slots, rfl⟩
  | cons c columns ih =>
    cases slots with
    | nil => cases hlength
    | cons value slots =>
      obtain ⟨cell, hcell⟩ := h 0 c rfl
      have happend : c.append value = .ok (c.extend [cell]) :=
        TableColumn.append_eq_ok_iff.mpr ⟨cell, hcell, rfl⟩
      obtain ⟨columns', slots', hrest⟩ :=
        ih (Nat.succ.inj hlength) fun j d hd => h (j + 1) d hd
      exact ⟨_, _, by rw [appendSlots, happend]; dsimp only; rw [hrest]⟩

/-! ## Appending rows -/

/-- Every column takes one cell of each row, the one that the row wrote into its slot. -/
theorem appendRows_ok {columns columns' : List TableColumn} {rows : List Row}
    (h : appendRows columns (blankSlots columns.length) rows = .ok columns') :
    columns'.length = columns.length ∧
      ∀ (j : Nat) (c : TableColumn), columns[j]? = some c →
        ∃ cells, columns'[j]? = some (c.extend cells) ∧ List.Forall₂
          (fun (row : Row) cell => Scalar.cell? c.column.kind row[j]? = some cell) rows cells := by
  induction rows generalizing columns with
  | nil =>
    cases h
    exact ⟨rfl, fun j c hc => ⟨[], by rw [hc, c.extend_nil], .nil⟩⟩
  | cons row rows ih =>
    rw [appendRows] at h
    split at h
    next => cases h
    next columns₁ slots₁ happend =>
      -- The slots are blank again, so the next row finds them as this one did.
      obtain ⟨rfl, hcount, hcells⟩ := appendSlots_ok (by simp) happend
      rw [← hcount] at h
      obtain ⟨hcount', hrest⟩ := ih h
      refine ⟨hcount'.trans hcount, ?_⟩
      intro j c hc
      have hj : j < columns.length := (List.getElem?_eq_some_iff.mp hc).1
      obtain ⟨cell, hcell, hc₁⟩ := hcells j c hc
      obtain ⟨cells, hc', hforall⟩ := hrest j _ hc₁
      rw [Scalar.cell?_write _ _ hj] at hcell
      exact ⟨cell :: cells, hc'.trans (congrArg some (c.extend_extend cell cells)),
        .cons hcell hforall⟩

theorem exists_appendRows {columns : List TableColumn} {rows : List Row}
    (h : ∀ row ∈ rows, ∀ (j : Nat) (c : TableColumn), columns[j]? = some c →
      ∃ cell, Scalar.cell? c.column.kind row[j]? = some cell) :
    ∃ columns', appendRows columns (blankSlots columns.length) rows = .ok columns' := by
  induction rows generalizing columns with
  | nil => exact ⟨columns, rfl⟩
  | cons row rows ih =>
    obtain ⟨columns₁, slots₁, happend⟩ :
        ∃ columns₁ slots₁, appendSlots columns (row.write (blankSlots columns.length)) =
          .ok (columns₁, slots₁) := by
      refine exists_appendSlots (by simp) ?_
      intro j c hc
      rw [Scalar.cell?_write _ _ (List.getElem?_eq_some_iff.mp hc).1]
      exact h row List.mem_cons_self j c hc
    obtain ⟨rfl, hcount, hcells⟩ := appendSlots_ok (by simp) happend
    rw [appendRows, happend]
    dsimp only
    rw [← hcount]
    refine ih ?_
    -- The columns have kept their kinds.
    intro row' hrow' j c₁ hc₁
    have hj : j < columns.length := by
      rw [← hcount]
      exact (List.getElem?_eq_some_iff.mp hc₁).1
    obtain ⟨cell, -, hc⟩ := hcells j _ (List.getElem?_eq_getElem hj)
    cases hc₁.symm.trans hc
    show ∃ cell, Scalar.cell? columns[j].column.kind row'[j]? = some cell
    exact h row' (List.mem_cons_of_mem _ hrow') j columns[j] (List.getElem?_eq_getElem hj)

/-! ## Tables -/

theorem emptyColumns_ok {heads : List ColumnHead} {columns : List TableColumn}
    (h : emptyColumns heads = .ok columns) :
    columns.length = heads.length ∧
      ∀ (j : Nat) (head : ColumnHead), heads[j]? = some head →
        ∃ k, head.kind = .kind k ∧ columns[j]? = some ⟨head.name, .empty k⟩ := by
  induction heads generalizing columns with
  | nil =>
    cases h
    exact ⟨rfl, fun j head hhead => nomatch hhead⟩
  | cons head heads ih =>
    rw [emptyColumns] at h
    split at h
    next => cases h
    next c hc =>
      split at h
      next => cases h
      next hrest =>
        cases h
        obtain ⟨hcount, hcolumns⟩ := ih hrest
        refine ⟨by simp [hcount], ?_⟩
        intro j head' hhead'
        cases j with
        | zero =>
          cases hhead'
          cases hkind : head.kind with
          | kind k =>
            simp only [TableColumn.ofHead, hkind, Except.ok.injEq] at hc
            exact ⟨k, rfl, by rw [hc]; rfl⟩
          | unsupported name => simp [TableColumn.ofHead, hkind] at hc
        | succ j => exact hcolumns j head' hhead'

theorem exists_emptyColumns {heads : List ColumnHead}
    (h : ∀ head ∈ heads, ∃ k, head.kind = .kind k) :
    ∃ columns, emptyColumns heads = .ok columns := by
  induction heads with
  | nil => exact ⟨[], rfl⟩
  | cons head heads ih =>
    obtain ⟨k, hk⟩ := h head List.mem_cons_self
    obtain ⟨columns, hcolumns⟩ := ih fun head' hmem => h head' (List.mem_cons_of_mem _ hmem)
    exact ⟨⟨head.name, .empty k⟩ :: columns, by
      simp [emptyColumns, TableColumn.ofHead, hk, hcolumns]⟩

end Table

/-- A column holds what the rows of a result have written into a slot. -/
structure TableColumn.Holds (c : TableColumn) (head : ColumnHead) (rows : List Row)
    (slot : Nat) : Prop where
  name : c.name = head.name
  /-- The column has the declared kind. -/
  kind : head.kind = .kind c.column.kind
  /-- There is a cell for every row. -/
  length : c.column.length = rows.length
  /-- A cell is null exactly if its row wrote null or nothing. -/
  null_iff : ∀ (i : Nat) (row : Row), rows[i]? = some row →
    (c.column.cells[i]? = some none ↔ row[slot]? = none ∨ row[slot]? = some .null)
  /-- Every other cell has the value that its row wrote, in the kind of the column. -/
  value : ∀ (i : Nat) (row : Row) (v : Scalar), rows[i]? = some row → row[slot]? = some v →
    v ≠ .null → ∃ x, v.coerce? c.column.kind = some x ∧ c.column.cells[i]? = some (some x)

theorem Scalar.cell?_eq_some_iff {k : Kind} {slot : Option Scalar} {cell : k.Cell} :
    cell? k slot = some cell ↔
      (cell = none ∧ (slot = none ∨ slot = some .null)) ∨
        ∃ v x, slot = some v ∧ v ≠ .null ∧ v.coerce? k = some x ∧ cell = some x := by
  cases slot with
  | none => simp [cell?, eq_comm]
  | some v =>
    by_cases hnull : v = .null
    · simp [cell?, hnull, eq_comm]
    · simp [cell?, hnull, eq_comm]

theorem TableColumn.holds_of_cells {name : String} {k : Kind} {rows : List Row} {slot : Nat}
    {cells : List k.Cell}
    (h : List.Forall₂ (fun (row : Row) cell => Scalar.cell? k row[slot]? = some cell) rows cells) :
    Holds ⟨name, ⟨k, cells.toArray⟩⟩ ⟨name, .kind k⟩ rows slot := by
  have hcell : ∀ (i : Nat) (row : Row), rows[i]? = some row →
      ∃ cell, cells[i]? = some cell ∧ Scalar.cell? k row[slot]? = some cell := by
    intro i row hrow
    obtain ⟨hi, rfl⟩ := List.getElem?_eq_some_iff.mp hrow
    have hi' : i < cells.length := h.length_eq ▸ hi
    exact ⟨cells[i], List.getElem?_eq_getElem hi', h.get hi hi'⟩
  refine ⟨rfl, rfl, h.length_eq.symm, ?_, ?_⟩
  · intro i row hrow
    obtain ⟨cell, hget, hcell⟩ := hcell i row hrow
    simp only [List.getElem?_toArray, hget, Option.some.injEq]
    rcases Scalar.cell?_eq_some_iff.mp hcell with ⟨hnone, hslot⟩ | ⟨v, x, hslot, hv, -, hx⟩
    · exact ⟨fun _ => hslot, fun _ => hnone⟩
    · simp [hx, hslot, hv]
  · intro i row v hrow hslot hv
    obtain ⟨cell, hget, hcell⟩ := hcell i row hrow
    simp only [List.getElem?_toArray, hget, Option.some.injEq]
    rw [hslot, Scalar.cell?, if_neg hv, Option.map_eq_some_iff] at hcell
    obtain ⟨x, hx, rfl⟩ := hcell
    exact ⟨x, hx, rfl⟩

namespace Table

theorem ofRows_holds {heads : List ColumnHead} {rows : List Row} {t : Table}
    (h : ofRows heads rows = .ok t) :
    t.columns.length = heads.length ∧
      ∀ (j : Nat) (head : ColumnHead), heads[j]? = some head →
        ∃ c, t.columns[j]? = some c ∧ c.Holds head rows j := by
  unfold ofRows at h
  split at h
  next => cases h
  next columns hempty =>
    split at h
    next => cases h
    next columns' happend =>
      cases h
      obtain ⟨hcount, hcolumns⟩ := emptyColumns_ok hempty
      obtain ⟨hcount', hcells⟩ := appendRows_ok happend
      refine ⟨hcount'.trans hcount, ?_⟩
      rintro j ⟨name, kind⟩ hhead
      obtain ⟨k, rfl, hc⟩ := hcolumns j _ hhead
      obtain ⟨cells, hc', hforall⟩ := hcells j _ hc
      refine ⟨_, hc', ?_⟩
      have hextend : TableColumn.extend ⟨name, .empty k⟩ cells = ⟨name, ⟨k, cells.toArray⟩⟩ :=
        congrArg (fun cells : Array k.Cell => TableColumn.mk name ⟨k, cells⟩) Array.empty_append
      rw [hextend]
      exact TableColumn.holds_of_cells hforall

/-- A result that can be read: its columns have kinds, and every value that a row writes
into a slot can be taken as a value of the kind of the column. -/
def Readable (heads : List ColumnHead) (rows : List Row) : Prop :=
  ∀ (j : Nat) (head : ColumnHead), heads[j]? = some head →
    ∃ k, head.kind = .kind k ∧ ∀ row ∈ rows, ∀ v, row[j]? = some v → v ≠ .null →
      ∃ x, v.coerce? k = some x

theorem exists_ofRows_iff {heads : List ColumnHead} {rows : List Row} :
    (∃ t, ofRows heads rows = .ok t) ↔ Readable heads rows := by
  constructor
  · rintro ⟨t, ht⟩ j head hhead
    obtain ⟨c, -, hc⟩ := (ofRows_holds ht).2 j head hhead
    refine ⟨c.column.kind, hc.kind, ?_⟩
    intro row hrow v hv hnull
    obtain ⟨i, hi⟩ := List.getElem?_of_mem hrow
    obtain ⟨x, hx, -⟩ := hc.value i row v hi hv hnull
    exact ⟨x, hx⟩
  · intro h
    obtain ⟨columns, hempty⟩ : ∃ columns, emptyColumns heads = .ok columns := by
      refine exists_emptyColumns ?_
      intro head hmem
      obtain ⟨j, hj⟩ := List.getElem?_of_mem hmem
      obtain ⟨k, hk, -⟩ := h j head hj
      exact ⟨k, hk⟩
    obtain ⟨hcount, hcolumns⟩ := emptyColumns_ok hempty
    obtain ⟨columns', happend⟩ : ∃ columns',
        appendRows columns (blankSlots columns.length) rows = .ok columns' := by
      refine exists_appendRows ?_
      intro row hrow j c hc
      have hj : j < heads.length := by
        rw [← hcount]
        exact (List.getElem?_eq_some_iff.mp hc).1
      obtain ⟨k, hk, hvalues⟩ := h j _ (List.getElem?_eq_getElem hj)
      obtain ⟨k', hk', hc'⟩ := hcolumns j _ (List.getElem?_eq_getElem hj)
      cases hc.symm.trans hc'
      cases hk.symm.trans hk'
      show ∃ cell, Scalar.cell? k row[j]? = some cell
      cases hslot : row[j]? with
      | none => exact ⟨none, rfl⟩
      | some v =>
        by_cases hnull : v = .null
        · exact ⟨none, if_pos hnull⟩
        · obtain ⟨x, hx⟩ := hvalues row hrow v hslot hnull
          exact ⟨some x, by rw [Scalar.cell?, if_neg hnull, hx]; rfl⟩
    exact ⟨⟨columns'⟩, by rw [ofRows, hempty]; dsimp only; rw [happend]⟩

theorem ofResult_eq_ok_iff {result : ResultSet} {t : Table} :
    ofResult result = .ok t ↔
      ofRows result.columns result.cursor.pending = .ok t ∧ result.cursor.failure = none := by
  unfold ofResult
  cases ofRows result.columns result.cursor.pending with
  | error e => simp
  | ok table => cases result.cursor.failure <;> simp

/-- A result is read into a table exactly if its cursor does not fail, its columns have
kinds and its values can be taken in these.  The table has a column for every head of the
result, in their order, and the column holds what the rows have written into its slot. -/
theorem ofResult_holds (result : ResultSet) :
    ((∃ t, ofResult result = .ok t) ↔
      result.cursor.failure = none ∧ Readable result.columns result.cursor.pending) ∧
      ∀ t, ofResult result = .ok t → t.columns.length = result.columns.length ∧
        ∀ (j : Nat) (head : ColumnHead), result.columns[j]? = some head →
          ∃ c, t.columns[j]? = some c ∧ c.Holds head result.cursor.pending j := by
  constructor
  · simp only [ofResult_eq_ok_iff]
    rw [exists_and_right, exists_ofRows_iff, And.comm]
  · intro t ht
    exact ofRows_holds (ofResult_eq_ok_iff.mp ht).1

/-- Rows of different lengths, one of which writes nothing. -/
def ragged : ResultSet :=
  ⟨[⟨"count", .kind .integer⟩, ⟨"host", .kind .string⟩],
    ⟨[[.int 1, .string "a"], [.string " 2 "], [], [.null, .string "b", .bool true]], none⟩⟩

/-- Rows that write fewer values than there are columns leave nulls, a text becomes the number that
it is, and the value that one row writes too many is nowhere. -/
theorem ofResult_holds_ragged : ∃ t, ofResult ragged = .ok t ∧ t.columns.length = 2 ∧
    (∃ counts : Array (Option Int64), t.columns[0]? = some ⟨"count", ⟨.integer, counts⟩⟩ ∧
      counts.size = 4 ∧ counts[0]? = some (some 1) ∧ counts[1]? = some (some 2) ∧
      counts[2]? = some none ∧ counts[3]? = some none) ∧
    ∃ hosts : Array (Option String), t.columns[1]? = some ⟨"host", ⟨.string, hosts⟩⟩ ∧
      hosts.size = 4 ∧ hosts[0]? = some (some "a") ∧ hosts[1]? = some none ∧
      hosts[2]? = some none ∧ hosts[3]? = some (some "b") := by
  obtain ⟨-, hholds⟩ := ofResult_holds ragged
  obtain ⟨t, ht⟩ : ∃ t, ofResult ragged = .ok t := ⟨_, rfl⟩
  obtain ⟨hcount, hcolumns⟩ := hholds t ht
  refine ⟨t, ht, hcount, ?_, ?_⟩
  · obtain ⟨⟨name, ⟨kind, counts⟩⟩, hcolumn, hc⟩ := hcolumns 0 _ rfl
    obtain rfl : name = "count" := hc.name
    cases hc.kind
    refine ⟨counts, hcolumn, hc.length, ?_, ?_, (hc.null_iff 2 _ rfl).mpr (.inl rfl),
      (hc.null_iff 3 _ rfl).mpr (.inr rfl)⟩
    · obtain ⟨n, hn, hcell⟩ := hc.value 0 _ _ rfl rfl (by decide)
      cases Scalar.coerce?_eq_some_iff.mp hn
      exact hcell
    · obtain ⟨n, hn, hcell⟩ := hc.value 1 _ _ rfl rfl (by decide)
      cases Scalar.coerce?_eq_some_iff.mp hn with
      | wholeText hread =>
        have htwo : Digits.readInt64? (Text.trim " 2 ".toList) = some 2 := by decide +kernel
        rw [htwo] at hread
        cases hread
        exact hcell
  · obtain ⟨⟨name, ⟨kind, hosts⟩⟩, hcolumn, hc⟩ := hcolumns 1 _ rfl
    obtain rfl : name = "host" := hc.name
    cases hc.kind
    refine ⟨hosts, hcolumn, hc.length, ?_, (hc.null_iff 1 _ rfl).mpr (.inl rfl),
      (hc.null_iff 2 _ rfl).mpr (.inl rfl), ?_⟩
    · obtain ⟨s, hs, hcell⟩ := hc.value 0 _ _ rfl rfl (by decide)
      cases Scalar.coerce?_eq_some_iff.mp hs
      exact hcell
    · obtain ⟨s, hs, hcell⟩ := hc.value 3 _ _ rfl rfl (by decide)
      cases Scalar.coerce?_eq_some_iff.mp hs
      exact hcell

end Table

end SeriesQuery
