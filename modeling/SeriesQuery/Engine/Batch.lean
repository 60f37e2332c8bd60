import SeriesQuery.Engine.Storage

/-!
# Batches

The engine delivers the rows of a result in batches, each of them column by column.
A `BatchCursor` reads them row by row: `next` gives the values of the next row, and
passes over batches without rows.  A cell that cannot be read makes the row fail,
and the place stays before that row.

`BatchCursor.ahead_next` says that every row brings the end nearer, so all rows can
be read.
-/

namespace SeriesQuery

/-- Rows that are stored together, column by column. -/
abbrev Batch := List Vector

namespace Batch

def rowCount (b : Batch) : Nat := (b.head?.map Vector.length).getD 0

/-- The values of a row.  The first cell that cannot be read fails. -/
def scan (b : Batch) (row : Nat) : Except ExecutionError Row := b.mapM (Vector.scan row)

end Batch

/-- A place in batches: those that are not read to their end, and a row of the first
of them. -/
structure BatchCursor where
  batches : List Batch
  row : Nat

namespace BatchCursor

/-- The place before the first row. -/
def start (batches : List Batch) : BatchCursor := ⟨batches, 0⟩

/-- Reads the next row from batches, of which the first is read up to a row: gives
the values and the place behind them, or nothing at the end.  At a row that cannot
be read the place stays. -/
def nextIn : List Batch → Nat → Except ExecutionError (Option (Row × BatchCursor))
  | [], _ => .ok none
  | b :: bs, row =>
    if row < b.rowCount then
      match b.scan row with
      | .ok values => .ok (some (values, ⟨b :: bs, row + 1⟩))
      | .error e => .error e
    else nextIn bs 0

def next (c : BatchCursor) : Except ExecutionError (Option (Row × BatchCursor)) :=
  nextIn c.batches c.row

/-- The number of rows ahead. -/
def ahead : BatchCursor → Nat
  | ⟨[], _⟩ => 0
  | ⟨b :: bs, row⟩ => (b.rowCount - row) + (bs.map Batch.rowCount).foldr (· + ·) 0

theorem ahead_nextIn {bs : List Batch} {row : Nat} {values : Row} {c : BatchCursor}
    (h : nextIn bs row = .ok (some (values, c))) : c.ahead < ahead ⟨bs, row⟩ := by
  induction bs generalizing row with
  | nil => simp [nextIn] at h
  | cons b bs ih =>
    unfold nextIn at h
    split at h
    · next hlt =>
      split at h
      · simp only [Except.ok.injEq, Option.some.injEq, Prod.mk.injEq] at h
        rw [← h.2]
        simp only [ahead]
        omega
      · simp at h
    · have := ih h
      refine Nat.lt_of_lt_of_le this ?_
      cases bs with
      | nil => simp [ahead]
      | cons d ds => simp only [ahead, List.map_cons, List.foldr_cons]; omega

/-- Every row brings the cursor nearer to its end. -/
theorem ahead_next {c d : BatchCursor} {values : Row} (h : c.next = .ok (some (values, d))) :
    d.ahead < c.ahead := ahead_nextIn h

/-- Reads all rows ahead. -/
def toCursor (c : BatchCursor) : Cursor :=
  match _h : c.next with
  | .error e => ⟨[], some e⟩
  | .ok none => ⟨[], none⟩
  | .ok (some (values, d)) =>
    let rest := d.toCursor
    ⟨values :: rest.pending, rest.failure⟩
termination_by c.ahead
decreasing_by exact ahead_next (by assumption)

end BatchCursor

end SeriesQuery
