import SeriesQuery.FillPolicy
import SeriesQuery.Frame.Basic
import SeriesQuery.Time.Span

/-!
# Filling the gaps of a series

A series is put on a grid of buckets.  Buckets have a width of whole seconds and
start at its multiples, from the one that holds the start of the range to the
last that starts within the range.  Every bucket gives one row: a copy of the row
whose time is the start of the bucket, or else a row with that time and cells
filled by a policy.  Rows whose time is no start of a bucket are dropped.

Buckets and rows are both in the order of time, so one walk over the buckets
meets every row: `Pending` is the row that may be next, and before a bucket all
rows that are earlier are skipped.  The last row is never skipped.

The start of the first bucket, the distance from there to the end of the range and
the next start behind each bucket are signed words of 64 bits.  A result that no word
holds is a fault, which ends the filling (`checked`).
-/

namespace SeriesQuery

namespace Fill

/-- The result of an operation on seconds, if a word holds it. -/
def checked (operation : Word.Operation) (result : Int) : Except ConversionError Int :=
  if Word.Fits result then .ok result else .error (.overflow operation)

/-- The start of the bucket of a width that holds a second. -/
def bucketStart (second width : Int) : Int := second / width * width

/-- Counts the buckets that start from `start` to `stop`. -/
def countBuckets (start stop width : Int) : Except ConversionError Nat :=
  if stop < start then .ok 0
  else
    match checked .subtract (stop - start) with
    | .error e => .error e
    | .ok distance => .ok ((distance / width).toNat + 1)

/-- The row that may be next, and the times of those after it. -/
structure Pending where
  row : Nat
  time : Instant
  /-- The times of the rows after it. -/
  later : List Instant

/-- The row after the next one; the last row stays. -/
def Pending.next : Pending → Pending
  | ⟨row, _, t :: ts⟩ => ⟨row + 1, t, ts⟩
  | p => p

/-- Skips the rows earlier than a bucket, but not the last row. -/
def Pending.skipTo (bucket : Instant) (row : Nat) (time : Instant) : List Instant → Pending
  | [] => ⟨row, time, []⟩
  | t :: ts => if time < bucket then skipTo bucket (row + 1) t ts else ⟨row, time, t :: ts⟩

/-- A column with one more cell, filled by a policy. -/
def pushMissing (policy : FillPolicy) (c : Column) : Column :=
  match policy with
  | .null => c.pushNull
  | .previous => c.pushRepeatLast
  | .constant x => c.pushConstant x

/-- Appends a row that the source does not have.  `index` is the number of the
first field. -/
def appendMissing (timeIndex : Nat) (bucket : Instant) (policy : FillPolicy) :
    (index : Nat) → List Field → Except ConversionError (List Field)
  | _, [] => .ok []
  | index, f :: fs =>
    let column :=
      if index = timeIndex then f.column.pushInstant bucket else .ok (pushMissing policy f.column)
    match column with
    | .error e => .error e
    | .ok column =>
      match appendMissing timeIndex bucket policy (index + 1) fs with
      | .error e => .error e
      | .ok fs => .ok ({ f with column } :: fs)

/-- Appends the row of a bucket: the pending row if it has the bucket's time, or
one that is filled.  Gives the fields and the row that is pending then. -/
def appendBucket (source : List Field) (timeIndex : Nat) (policy : FillPolicy) (bucket : Instant)
    (pending : Pending) (fields : List Field) : Except ConversionError (List Field × Pending) :=
  if pending.time = bucket then
    match Frame.appendRow pending.row fields source with
    | (fields, none) => .ok (fields, pending.next)
    | (_, some e) => .error e
  else
    match appendMissing timeIndex bucket policy 0 fields with
    | .error e => .error e
    | .ok fields => .ok (fields, pending)

/-- Walks over so many buckets, the first of which starts at `second`. -/
def walk (source : List Field) (timeIndex : Nat) (policy : FillPolicy) (width : Int) :
    (count : Nat) → (second : Int) → Pending → List Field → Except ConversionError (List Field)
  | 0, _, _, fields => .ok fields
  | count + 1, second, pending, fields =>
    match Instant.ofSecond? second with
    | none => .error (.timeOutOfRange second)
    | some bucket =>
      let pending := Pending.skipTo bucket pending.row pending.time pending.later
      match appendBucket source timeIndex policy bucket pending fields with
      | .error e => .error e
      | .ok (fields, pending) =>
        match checked .add (second + width) with
        | .error e => .error e
        | .ok next => walk source timeIndex policy width count next pending fields

end Fill

/-- Puts a series on so many buckets, the first of which starts at `start`.  A frame
without rows stays without rows. -/
def Frame.fillBuckets (f : Frame) (timeIndex : Nat) (policy : FillPolicy) (width start : Int)
    (count : Nat) : Except ConversionError Frame :=
  if maxBuckets < count then .error (.tooManyBuckets count)
  else
    match f.times timeIndex with
    | .error e => .error e
    | .ok times =>
      if !Frame.timesAscend times then .error .notSortedByTime
      else
        match times with
        | [] => .ok f.emptyCopy
        | t :: ts =>
          match Fill.walk f.fields timeIndex policy width count start ⟨0, t, ts⟩
              f.emptyCopy.fields with
          | .error e => .error e
          | .ok fields => .ok { f with fields }

/-- Puts a series on the grid of buckets of a range. -/
def Frame.fill (f : Frame) (timeIndex : Nat) (range : TimeRange) (interval : Span)
    (policy : FillPolicy) : Except ConversionError Frame :=
  let width : Int := interval.seconds
  if width ≤ 0 ∨ Digits.maxInt64 < width then .error .invalidInterval
  else
    match Fill.checked .multiply (Fill.bucketStart range.start.second width) with
    | .error e => .error e
    | .ok start =>
      match Fill.countBuckets start range.stop.second width with
      | .error e => .error e
      | .ok count => f.fillBuckets timeIndex policy width start count

end SeriesQuery
