import Mathlib.Data.List.Forall2
import SeriesQuery.Engine.Batch
import SeriesQuery.Proofs.Result.Reading

/-!
# Batches as a table

A place in batches is two numbers, a batch and a row of it, and batches without rows are
passed over.  All that counts of a place are the rows behind it (`TypedBatch.remaining`): a
fetch takes the first of them away, and at the end of them it changes nothing
(`Before.next_cons`, `Before.next_nil`).  So the rows of all batches come one after the other
and each of them once, whichever buffers they are fetched into (`Before.fetches`), and so does
the whole cursor (`Before.toCursor`).

A batch whose columns have the declared kinds gives only values that these kinds take back
(`Scalar.cell?_ofCell`), so that a table can always be made, and its columns are the columns of
the batches, one after the other (`BatchCursor.start_delivers`).
-/

namespace SeriesQuery

/-! ## Cells as scalars -/

namespace Scalar

/-- A cell as a scalar of a result. -/
def ofCell (k : Kind) (cell : k.Cell) : Scalar := cell.elim .null (ofValue k)

theorem ofValue_ne_null (k : Kind) (x : k.Value) : ofValue k x ≠ .null := by
  cases k <;> exact nofun

theorem coerce?_ofValue (k : Kind) (x : k.Value) : (ofValue k x).coerce? k = some x := by
  cases k <;> rfl

/-- A column of its kind takes the cell back. -/
theorem cell?_ofCell (k : Kind) (cell : k.Cell) : cell? k (some (ofCell k cell)) = some cell := by
  cases cell with
  | none => rfl
  | some x =>
    show cell? k (some (ofValue k x)) = some (some x)
    rw [cell?, if_neg (ofValue_ne_null k x), coerce?_ofValue, Option.map_some]

end Scalar

/-! ## Typed batches -/

/-- A batch with a column for each of some heads: cells of its kind, and equally many in all
columns. -/
structure TypedBatch (heads : List (String × Kind)) where
  rowCount : Nat
  cells : (i : Fin heads.length) → Array heads[i].2.Cell
  size_cells : ∀ i, (cells i).size = rowCount

namespace TypedBatch

variable {heads : List (String × Kind)}

def columns (b : TypedBatch heads) : List Column := List.ofFn fun i => ⟨heads[i].2, b.cells i⟩

def toBatch (b : TypedBatch heads) : Batch := b.columns.map .known

def row (b : TypedBatch heads) (row : Nat) : Row :=
  List.ofFn fun i => Scalar.ofCell heads[i].2 (b.cells i)[row]?.join

def rows (b : TypedBatch heads) : List Row := (List.range b.rowCount).map b.row

/-- The columns of batches, one after the other. -/
def concat (batches : List (TypedBatch heads)) : Table :=
  ⟨List.ofFn fun i =>
    ⟨heads[i].1, ⟨heads[i].2, (batches.flatMap fun b => (b.cells i).toList).toArray⟩⟩⟩

@[simp] theorem length_row (b : TypedBatch heads) (row : Nat) :
    (b.row row).length = heads.length := by
  simp [TypedBatch.row]

theorem getElem?_row (b : TypedBatch heads) (row : Nat) (i : Fin heads.length) :
    (b.row row)[i.1]? = some (Scalar.ofCell heads[i].2 (b.cells i)[row]?.join) := by
  simp [TypedBatch.row]

theorem length_of_mem_flatMap_rows {batches : List (TypedBatch heads)} {values : Row}
    (h : values ∈ batches.flatMap rows) : values.length = heads.length := by
  obtain ⟨b, -, hvalues⟩ := List.mem_flatMap.mp h
  obtain ⟨row, -, rfl⟩ := List.mem_map.mp hvalues
  exact b.length_row row

/-- No row fails to be read. -/
theorem scan_toBatch (b : TypedBatch heads) (row : Nat) : b.toBatch.scan row = .ok (b.row row) := by
  have hscan : (Vector.scan row ∘ Vector.known) = fun c : Column =>
      (pure (Scalar.ofCell c.kind c.cells[row]?.join) : Except ExecutionError Scalar) := by
    funext c
    show Vector.scan row (.known c) = _
    rw [Vector.scan, Scalar.ofCell]
    cases c.cells[row]? <;> rfl
  rw [Batch.scan, toBatch, List.mapM_map, hscan, List.mapM_pure]
  show Except.ok _ = Except.ok _
  rw [TypedBatch.row, columns, List.map_ofFn]
  rfl

/-- The first column tells how many rows there are, if there is one. -/
theorem rowCount_toBatch (hheads : heads ≠ []) (b : TypedBatch heads) :
    b.toBatch.rowCount = b.rowCount := by
  obtain ⟨head, heads, rfl⟩ := List.exists_cons_of_ne_nil hheads
  simp only [Batch.rowCount, toBatch, columns, List.length_cons, List.ofFn_succ, List.map_cons,
    List.head?_cons, Option.map_some, Option.getD_some]
  exact b.size_cells 0

/-! ## Reading one row -/

/-- The rows behind a place: those of the first batch from a row on, and those of the others. -/
def remaining : List (TypedBatch heads) → Nat → List Row
  | [], _ => []
  | b :: bs, row => b.rows.drop row ++ bs.flatMap rows

theorem remaining_of_lt {b : TypedBatch heads} {row : Nat} (hrow : row < b.rowCount)
    (bs : List (TypedBatch heads)) :
    remaining (b :: bs) row = b.row row :: remaining (b :: bs) (row + 1) := by
  have hdrop : b.rows.drop row = b.row row :: b.rows.drop (row + 1) := by
    rw [List.drop_eq_getElem_cons (by simpa [rows] using hrow)]
    simp [rows]
  rw [remaining, remaining, hdrop, List.cons_append]

theorem remaining_zero (bs : List (TypedBatch heads)) : remaining bs 0 = bs.flatMap rows := by
  cases bs <;> simp [remaining]

theorem remaining_of_le {b : TypedBatch heads} {row : Nat} (hrow : b.rowCount ≤ row)
    (bs : List (TypedBatch heads)) : remaining (b :: bs) row = remaining bs 0 := by
  have hdrop : b.rows.drop row = [] := List.drop_eq_nil_of_le (by simpa [rows] using hrow)
  rw [remaining, hdrop, List.nil_append, remaining_zero]

end TypedBatch

namespace BatchCursor

open TypedBatch

variable {heads : List (String × Kind)} {c : BatchCursor} {rows : List Row}

/-- The cursor stands in typed batches, before these rows. -/
def Before (heads : List (String × Kind)) (c : BatchCursor) (rows : List Row) : Prop :=
  ∃ (bs : List (TypedBatch heads)) (row : Nat),
    c = ⟨bs.map toBatch, row⟩ ∧ rows = remaining bs row

theorem before_start (batches : List (TypedBatch heads)) :
    Before heads (start (batches.map toBatch)) (batches.flatMap TypedBatch.rows) :=
  ⟨batches, 0, rfl, (remaining_zero batches).symm⟩

/-- Reading a row takes the first of the remaining rows, in whichever batch it stands. -/
theorem nextIn_toBatch (hheads : heads ≠ []) (bs : List (TypedBatch heads)) (row : Nat) :
    (remaining bs row = [] ∧ nextIn (bs.map toBatch) row = .ok none) ∨
      ∃ values d rows, remaining bs row = values :: rows ∧
        nextIn (bs.map toBatch) row = .ok (some (values, d)) ∧ Before heads d rows := by
  induction bs generalizing row with
  | nil => exact .inl ⟨rfl, rfl⟩
  | cons b bs ih =>
    rw [List.map_cons, nextIn, rowCount_toBatch hheads]
    split
    next hrow =>
      rw [scan_toBatch]
      exact .inr ⟨_, _, _, remaining_of_lt hrow bs, rfl, b :: bs, row + 1, rfl, rfl⟩
    next hrow =>
      -- The batch is read to its end, or it never had a row.
      rw [remaining_of_le (Nat.le_of_not_lt hrow)]
      exact ih 0

theorem Before.next_nil (hheads : heads ≠ []) (h : Before heads c []) : c.next = .ok none := by
  obtain ⟨bs, row, rfl, hrows⟩ := h
  rcases nextIn_toBatch hheads bs row with ⟨-, hnext⟩ | ⟨_, _, _, hcons, -⟩
  · exact hnext
  · exact absurd (hrows.trans hcons) nofun

theorem Before.next_cons {values : Row} (hheads : heads ≠ [])
    (h : Before heads c (values :: rows)) :
    ∃ d, c.next = .ok (some (values, d)) ∧ Before heads d rows := by
  obtain ⟨bs, row, rfl, hrows⟩ := h
  rcases nextIn_toBatch hheads bs row with ⟨hnil, -⟩ | ⟨_, d, _, hcons, hnext, hd⟩
  · exact absurd (hrows.trans hnil) nofun
  · cases hrows.trans hcons
    exact ⟨d, hnext, hd⟩

/-! ## Reading all rows -/

theorem Before.toCursor (hheads : heads ≠ []) (h : Before heads c rows) :
    c.toCursor = ⟨rows, none⟩ := by
  induction rows generalizing c with
  | nil =>
    have hnext := h.next_nil hheads
    rw [BatchCursor.toCursor]
    split
    next he => cases he.symm.trans hnext
    next => rfl
    next hsome => cases hsome.symm.trans hnext
  | cons values rows ih =>
    obtain ⟨d, hnext, hd⟩ := h.next_cons hheads
    rw [BatchCursor.toCursor]
    split
    next he => cases he.symm.trans hnext
    next hnone => cases hnone.symm.trans hnext
    next hsome =>
      cases hsome.symm.trans hnext
      rw [ih hd]

/-- Fetches a row into slots: gives the slots and the place behind the row, or nothing at the
end. -/
def fetch (c : BatchCursor) (slots : List Scalar) :
    Except ExecutionError (Option (List Scalar × BatchCursor)) :=
  c.next.map fun fetched => fetched.map fun (values, d) => (values.write slots, d)

/-- Fetches again and again, each time into other slots, and goes on at the end. -/
def fetches (c : BatchCursor) :
    List (List Scalar) → Except ExecutionError (List (Option (List Scalar)))
  | [] => .ok []
  | slots :: buffers =>
    match c.fetch slots with
    | .error e => .error e
    | .ok none => (c.fetches buffers).map (none :: ·)
    | .ok (some (slots, d)) => (d.fetches buffers).map (some slots :: ·)

/-- A row that fills all slots leaves nothing of what they held. -/
theorem write_of_length_eq {values : Row} {slots : List Scalar}
    (h : slots.length = values.length) : values.write slots = values := by
  apply List.ext_getElem? fun j => ?_
  rw [Row.getElem?_write]
  by_cases hj : j < values.length
  · have hj' : j < slots.length := h ▸ hj
    rw [List.getElem?_eq_getElem hj, List.getElem?_eq_getElem hj']
    rfl
  · rw [List.getElem?_eq_none (by omega), List.getElem?_eq_none (by omega)]
    rfl

/-- The fetches give the rows in their order, and nothing when there are no more. -/
theorem Before.fetches (hheads : heads ≠ []) {buffers : List (List Scalar)}
    (hbuffers : ∀ slots ∈ buffers, slots.length = heads.length)
    (hrows : ∀ values ∈ rows, values.length = heads.length) (h : Before heads c rows) :
    c.fetches buffers = .ok ((List.range buffers.length).map fun i => rows[i]?) := by
  induction buffers generalizing c rows with
  | nil => rfl
  | cons slots buffers ih =>
    have hbuffers' : ∀ slots ∈ buffers, slots.length = heads.length := fun _ hmem =>
      hbuffers _ (List.mem_cons_of_mem _ hmem)
    rw [List.length_cons, List.range_succ_eq_map, List.map_cons, List.map_map]
    cases rows with
    | nil =>
      rw [BatchCursor.fetches, fetch, h.next_nil hheads]
      show (c.fetches buffers).map (none :: ·) = _
      rw [ih hbuffers' hrows h]
      rfl
    | cons values rows =>
      obtain ⟨d, hnext, hd⟩ := h.next_cons hheads
      have hwrite : values.write slots = values :=
        write_of_length_eq ((hbuffers slots List.mem_cons_self).trans
          (hrows values List.mem_cons_self).symm)
      rw [BatchCursor.fetches, fetch, hnext]
      show (d.fetches buffers).map (some (values.write slots) :: ·) = _
      rw [ih hbuffers' (fun v hv => hrows v (List.mem_cons_of_mem _ hv)) hd, hwrite]
      rfl

end BatchCursor

/-! ## The table -/

/-- What the rows have written into its slot determines a column. -/
theorem TableColumn.Holds.unique {c c' : TableColumn} {head : ColumnHead} {rows : List Row}
    {slot : Nat} (h : c.Holds head rows slot) (h' : c'.Holds head rows slot) : c = c' := by
  obtain ⟨name, kind, cells⟩ := c
  obtain ⟨name', kind', cells'⟩ := c'
  obtain rfl : name = name' := h.name.trans h'.name.symm
  obtain rfl : kind = kind' := by cases h.kind.symm.trans h'.kind; rfl
  have hsize : cells.size = rows.length := h.length
  have hsize' : cells'.size = rows.length := h'.length
  have hcells : cells = cells' := by
    apply Array.ext_getElem? fun i => ?_
    cases hrow : rows[i]? with
    | none =>
      have hi : rows.length ≤ i := List.getElem?_eq_none_iff.mp hrow
      rw [Array.getElem?_eq_none (hsize ▸ hi), Array.getElem?_eq_none (hsize' ▸ hi)]
    | some row =>
      by_cases hnull : row[slot]? = none ∨ row[slot]? = some .null
      · exact ((h.null_iff i row hrow).mpr hnull).trans ((h'.null_iff i row hrow).mpr hnull).symm
      · rw [not_or] at hnull
        obtain ⟨v, hv⟩ := Option.ne_none_iff_exists'.mp hnull.1
        have hv' : v ≠ .null := fun heq => hnull.2 (heq ▸ hv)
        obtain ⟨x, hx, hcell⟩ := h.value i row v hrow hv hv'
        obtain ⟨x', hx', hcell'⟩ := h'.value i row v hrow hv hv'
        cases hx.symm.trans hx'
        exact hcell.trans hcell'.symm
  rw [hcells]

namespace TypedBatch

variable {heads : List (String × Kind)}

def declared (heads : List (String × Kind)) : List ColumnHead :=
  heads.map fun head => ⟨head.1, .kind head.2⟩

/-- Every row has the cells of all columns, row by row. -/
theorem forall₂_rows (b : TypedBatch heads) (i : Fin heads.length) :
    List.Forall₂ (fun (values : Row) cell => Scalar.cell? heads[i].2 values[i.1]? = some cell)
      b.rows (b.cells i).toList := by
  refine List.forall₂_iff_get.mpr ⟨by simp [rows, b.size_cells], fun row hrow hcell => ?_⟩
  have hget : (b.cells i)[row]?.join = (b.cells i).toList.get ⟨row, hcell⟩ := by
    simp at hcell
    simp [hcell]
  simp only [rows, List.get_eq_getElem, List.getElem_map, List.getElem_range, getElem?_row, hget]
  exact Scalar.cell?_ofCell _ _

theorem forall₂_flatMap_rows (batches : List (TypedBatch heads)) (i : Fin heads.length) :
    List.Forall₂ (fun (values : Row) cell => Scalar.cell? heads[i].2 values[i.1]? = some cell)
      (batches.flatMap rows) (batches.flatMap fun b => (b.cells i).toList) := by
  induction batches with
  | nil => exact .nil
  | cons b batches ih => exact List.rel_append (b.forall₂_rows i) ih

/-- The rows of typed batches make a table, whose columns are those of the batches. -/
theorem ofRows_declared (batches : List (TypedBatch heads)) :
    Table.ofRows (declared heads) (batches.flatMap rows) = .ok (concat batches) := by
  have hhead : ∀ i : Fin heads.length,
      (declared heads)[i.1]? = some ⟨heads[i].1, .kind heads[i].2⟩ := by simp [declared]
  obtain ⟨t, ht⟩ : ∃ t, Table.ofRows (declared heads) (batches.flatMap rows) = .ok t := by
    refine Table.exists_ofRows_iff.mpr fun j head hj => ?_
    have hlt : j < heads.length := by
      simpa [declared] using (List.getElem?_eq_some_iff.mp hj).1
    cases (hhead ⟨j, hlt⟩).symm.trans hj
    refine ⟨_, rfl, fun values hvalues v hv hnull => ?_⟩
    -- The value stands for a cell of the column.
    obtain ⟨row, hrow, rfl⟩ := List.getElem_of_mem hvalues
    have hforall := forall₂_flatMap_rows batches ⟨j, hlt⟩
    have hcell := hforall.get hrow (hforall.length_eq ▸ hrow)
    simp only [List.get_eq_getElem] at hcell
    rw [hv, Scalar.cell?, if_neg hnull, Option.map_eq_some_iff] at hcell
    obtain ⟨x, hx, -⟩ := hcell
    exact ⟨x, hx⟩
  obtain ⟨hcount, hcolumns⟩ := Table.ofRows_holds ht
  have hcount' : t.columns.length = heads.length := by simpa [declared] using hcount
  rw [ht, concat]
  congr 2
  obtain ⟨columns⟩ := t
  congr 1
  apply List.ext_getElem (by simpa using hcount')
  intro j hj hj'
  obtain ⟨c, hc, hholds⟩ := hcolumns j _ (hhead ⟨j, hcount' ▸ hj⟩)
  cases (List.getElem?_eq_getElem hj).symm.trans hc
  rw [List.getElem_ofFn]
  exact hholds.unique (TableColumn.holds_of_cells (forall₂_flatMap_rows batches ⟨j, hcount' ▸ hj⟩))

end TypedBatch

namespace BatchCursor

open TypedBatch

/-- From batches of some columns with the declared kinds, the fetches give all rows in their
order and then nothing, and a table is always made of them: its columns are those of the
batches, one after the other. -/
theorem start_delivers {heads : List (String × Kind)} (hheads : heads ≠ [])
    (batches : List (TypedBatch heads)) :
    (∀ buffers : List (List Scalar), (∀ slots ∈ buffers, slots.length = heads.length) →
      (start (batches.map toBatch)).fetches buffers =
        .ok ((List.range buffers.length).map fun i => (batches.flatMap TypedBatch.rows)[i]?)) ∧
      Table.ofResult ⟨declared heads, (start (batches.map toBatch)).toCursor⟩ =
        .ok (concat batches) := by
  have hbefore := before_start batches
  constructor
  · intro buffers hbuffers
    exact hbefore.fetches hheads hbuffers fun _ => length_of_mem_flatMap_rows
  · rw [hbefore.toCursor hheads]
    exact Table.ofResult_eq_ok_iff.mpr ⟨ofRows_declared batches, rfl⟩

/-- A batch of counts and hosts. -/
def counted (counts : List (Option Int64)) (hosts : List (Option String))
    (h : counts.length = hosts.length) :
    TypedBatch [("count", .integer), ("host", .string)] where
  rowCount := counts.length
  cells
    | 0 => counts.toArray
    | 1 => hosts.toArray
  size_cells
    | 0 => rfl
    | 1 => h.symm

/-- Three rows in five batches, of which the first, the third and the last are empty. -/
def scattered : List (TypedBatch [("count", .integer), ("host", .string)]) :=
  [counted [] [] rfl, counted [some 1, none] [some "a", some "b"] rfl, counted [] [] rfl,
    counted [some 3] [none] rfl, counted [] [] rfl]

/-- A row of a later batch is not missed, and a null writes over what the buffer held. -/
theorem start_delivers_scattered :
    [("count", Kind.integer), ("host", .string)] ≠ [] ∧
      (start (scattered.map toBatch)).fetches (List.replicate 5 [.bool true, .bool true]) =
        .ok [some [.int 1, .string "a"], some [.null, .string "b"], some [.int 3, .null],
          none, none] ∧
      Table.ofResult ⟨declared [("count", .integer), ("host", .string)],
          (start (scattered.map toBatch)).toCursor⟩ =
        .ok ⟨[⟨"count", ⟨.integer, #[some 1, none, some 3]⟩⟩,
          ⟨"host", ⟨.string, #[some "a", some "b", none]⟩⟩]⟩ := by
  obtain ⟨hfetches, htable⟩ := start_delivers (by decide) scattered
  refine ⟨by decide, ?_, htable⟩
  exact hfetches _ fun slots hslots => by rw [List.eq_of_mem_replicate hslots]; rfl

end BatchCursor

end SeriesQuery
