import SeriesQuery.Proofs.Frame.Checked

/-!
# The walk over the buckets

The walk keeps a pending row so that it meets every row once.  What it computes
does not depend on that row: a bucket gives a copy of the *first* row whose time is
the start of the bucket, and a filled row if there is none (`walk_eq_steps`).  Nor does
it depend on the check of the next start, since buckets start at multiples of their width.

The pending row is right for a bucket if all rows before it are earlier than the
bucket (`Pending.At`).  Skipping keeps this, and after it the pending row has the
time of the bucket exactly if some row has (`firstRow?_of_at`).
-/

namespace SeriesQuery

namespace Fill

/-- The first row of a time. -/
def firstRow? (times : List Instant) (time : Instant) : Option Nat := times.findIdx? (· = time)

theorem firstRow?_eq_some_iff {times : List Instant} {time : Instant} {row : Nat} :
    firstRow? times time = some row ↔
      times[row]? = some time ∧ ∀ before < row, times[before]? ≠ some time := by
  unfold firstRow?
  rw [List.findIdx?_eq_some_iff_getElem]
  constructor
  · rintro ⟨hlt, heq, hbefore⟩
    refine ⟨?_, fun before hb h => ?_⟩
    · rw [List.getElem?_eq_getElem hlt, Option.some.injEq]
      exact of_decide_eq_true heq
    · rw [List.getElem?_eq_getElem (Nat.lt_trans hb hlt), Option.some.injEq] at h
      exact hbefore before hb (decide_eq_true h)
  · rintro ⟨heq, hbefore⟩
    obtain ⟨hlt, hget⟩ := List.getElem?_eq_some_iff.mp heq
    refine ⟨hlt, decide_eq_true hget, fun before hb h => hbefore before hb ?_⟩
    rw [List.getElem?_eq_getElem (Nat.lt_trans hb hlt), Option.some.injEq]
    exact of_decide_eq_true h

theorem firstRow?_eq_none_iff {times : List Instant} {time : Instant} :
    firstRow? times time = none ↔ time ∉ times := by
  unfold firstRow?
  rw [List.findIdx?_eq_none_iff]
  constructor
  · intro h hmem
    exact absurd (h time hmem) (by simp)
  · intro h t ht
    exact decide_eq_false fun he => h (he ▸ ht)

/-- Of strictly ascending times each has one row. -/
theorem firstRow?_of_getElem? {times : List Instant} (hasc : times.Pairwise (· < ·))
    {row : Nat} {time : Instant} (h : times[row]? = some time) :
    firstRow? times time = some row := by
  refine firstRow?_eq_some_iff.mpr ⟨h, fun before hb he => ?_⟩
  obtain ⟨hrow, hrowEq⟩ := List.getElem?_eq_some_iff.mp h
  obtain ⟨hbefore, hbeforeEq⟩ := List.getElem?_eq_some_iff.mp he
  have hlt := List.pairwise_iff_getElem.mp hasc before row hbefore hrow hb
  rw [hrowEq, hbeforeEq] at hlt
  exact lt_irrefl time hlt

/-! ## The pending row -/

/-- A pending row of a list of times is right for a bucket: the rows before it are
earlier than the bucket. -/
structure Pending.At (times : List Instant) (bucket : Instant) (p : Pending) : Prop where
  /-- The pending row and those after it are rows of the list. -/
  drop_eq : times.drop p.row = p.time :: p.later
  /-- The rows before it are earlier than the bucket. -/
  passed : ∀ t ∈ times.take p.row, t < bucket

/-- The first row is right for every bucket. -/
theorem Pending.at_first (bucket time : Instant) (later : List Instant) :
    Pending.At (time :: later) bucket ⟨0, time, later⟩ :=
  ⟨rfl, by simp⟩

/-- A row that is right for a bucket is right for the later ones. -/
theorem Pending.At.mono {times : List Instant} {bucket bucket' : Instant} {p : Pending}
    (h : p.At times bucket) (hb : bucket < bucket') : p.At times bucket' :=
  ⟨h.drop_eq, fun t ht => lt_trans (h.passed t ht) hb⟩

theorem take_succ_of_drop {times later : List Instant} {row : Nat} {time : Instant}
    (h : times.drop row = time :: later) : times.take (row + 1) = times.take row ++ [time] := by
  have hget : times[row]? = some time := by
    have hhead := congrArg List.head? h
    rwa [List.head?_drop] at hhead
  rw [List.take_add_one, hget, Option.toList_some]

theorem drop_succ_of_drop {times later : List Instant} {row : Nat} {time : Instant}
    (h : times.drop row = time :: later) : times.drop (row + 1) = later := by
  have htail := congrArg List.tail h
  rwa [List.tail_drop] at htail

/-- The row after a pending row that is earlier than a bucket is right for it. -/
theorem Pending.At.succ {times later : List Instant} {bucket time t : Instant} {row : Nat}
    (h : Pending.At times bucket ⟨row, time, t :: later⟩) (ht : time < bucket) :
    Pending.At times bucket ⟨row + 1, t, later⟩ := by
  refine ⟨drop_succ_of_drop h.drop_eq, fun u hu => ?_⟩
  simp only at hu
  rw [take_succ_of_drop h.drop_eq, List.mem_append, List.mem_singleton] at hu
  cases hu with
  | inl hu => exact h.passed u hu
  | inr hu => exact hu ▸ ht

/-- Skipping stops at a row that is right for the bucket, and is earlier than the
bucket only if it is the last one. -/
theorem Pending.skipTo_at {times : List Instant} {bucket time : Instant} {row : Nat}
    {later : List Instant} (h : Pending.At times bucket ⟨row, time, later⟩) :
    (skipTo bucket row time later).At times bucket ∧
      ((skipTo bucket row time later).time < bucket →
        (skipTo bucket row time later).later = []) := by
  induction later generalizing row time with
  | nil => exact ⟨h, fun _ => rfl⟩
  | cons t later ih =>
    rw [skipTo]
    by_cases ht : time < bucket
    · rw [if_pos ht]
      exact ih (h.succ ht)
    · rw [if_neg ht]
      exact ⟨h, fun hlt => absurd hlt ht⟩

/-- After a bucket the row behind the pending one is right for the later buckets. -/
theorem Pending.At.next {times : List Instant} {bucket bucket' : Instant} {p : Pending}
    (h : p.At times bucket) (ht : p.time = bucket) (hb : bucket < bucket') :
    p.next.At times bucket' := by
  obtain ⟨row, time, later⟩ := p
  cases later with
  | nil => exact h.mono hb
  | cons t later => exact (h.mono hb).succ (lt_of_eq_of_lt ht hb)

/-- The pending row that skipping stops at is the first row of the bucket's time,
if there is one. -/
theorem firstRow?_of_at {times : List Instant} (hasc : times.Pairwise (· ≤ ·))
    {bucket : Instant} {p : Pending} (h : p.At times bucket)
    (hlast : p.time < bucket → p.later = []) :
    firstRow? times bucket = if p.time = bucket then some p.row else none := by
  have hsplit : times.take p.row ++ p.time :: p.later = times := by
    rw [← h.drop_eq, List.take_append_drop]
  have hget : times[p.row]? = some p.time := by
    rw [← List.head?_drop, h.drop_eq, List.head?_cons]
  by_cases heq : p.time = bucket
  · rw [if_pos heq]
    refine firstRow?_eq_some_iff.mpr ⟨heq ▸ hget, fun before hb he => ?_⟩
    have hmem : bucket ∈ times.take p.row :=
      List.mem_of_getElem? (by rwa [List.getElem?_take_of_lt hb])
    exact lt_irrefl bucket (h.passed bucket hmem)
  · rw [if_neg heq, firstRow?_eq_none_iff, ← hsplit, List.mem_append, List.mem_cons]
    rw [← hsplit, List.pairwise_append, List.pairwise_cons] at hasc
    rintro (hmem | hmem | hmem)
    · exact lt_irrefl bucket (h.passed bucket hmem)
    · exact heq hmem.symm
    · -- A later row of the bucket's time would make the pending row the last one.
      have hle := hasc.2.1.1 bucket hmem
      rw [hlast (lt_of_le_of_ne hle heq)] at hmem
      cases hmem

/-! ## The walk without a pending row -/

/-- Appends the row of a bucket: a copy of the first row of its time, or one that
is filled. -/
def appendAt (source : List Field) (timeIndex : Nat) (policy : FillPolicy) (times : List Instant)
    (bucket : Instant) (fields : List Field) : Except ConversionError (List Field) :=
  match firstRow? times bucket with
  | some row =>
    match Frame.appendRow row fields source with
    | (fields, none) => .ok fields
    | (_, some e) => .error e
  | none => appendMissing timeIndex bucket policy 0 fields

/-- Appends the rows of so many buckets, the first of which starts at `second`. -/
def steps (source : List Field) (timeIndex : Nat) (policy : FillPolicy) (times : List Instant)
    (width : Int) : (count : Nat) → (second : Int) → List Field →
      Except ConversionError (List Field)
  | 0, _, fields => .ok fields
  | count + 1, second, fields =>
    match Instant.ofSecond? second with
    | none => .error (.timeOutOfRange second)
    | some bucket =>
      match appendAt source timeIndex policy times bucket fields with
      | .error e => .error e
      | .ok fields => steps source timeIndex policy times width count (second + width) fields

/-- With a pending row that is right for a bucket, the row of the bucket is
appended as it is without, and the row pending then is right for the later
buckets. -/
theorem appendBucket_eq (source fields : List Field) (timeIndex : Nat) (policy : FillPolicy)
    {times : List Instant} (hasc : times.Pairwise (· ≤ ·)) {bucket : Instant} {p : Pending}
    (h : p.At times bucket) (hlast : p.time < bucket → p.later = []) :
    ∃ p' : Pending, (∀ bucket', bucket < bucket' → p'.At times bucket') ∧
      appendBucket source timeIndex policy bucket p fields =
        (appendAt source timeIndex policy times bucket fields).map (·, p') := by
  unfold appendBucket appendAt
  rw [firstRow?_of_at hasc h hlast]
  by_cases heq : p.time = bucket
  · refine ⟨p.next, fun bucket' hb => h.next heq hb, ?_⟩
    rw [if_pos heq, if_pos heq]
    dsimp only
    cases Frame.appendRow p.row fields source with
    | mk fields failure => cases failure <;> rfl
  · refine ⟨p, fun bucket' hb => h.mono hb, ?_⟩
    rw [if_neg heq, if_neg heq]
    cases appendMissing timeIndex bucket policy 0 fields <;> rfl

/-- The walk does not depend on its pending row: it appends to every bucket the
first row of its time, or a filled one. -/
theorem walk_eq_steps {source : List Field} {timeIndex : Nat} {policy : FillPolicy}
    {times : List Instant} (hasc : times.Pairwise (· ≤ ·)) {width : Int} (hpos : 0 < width)
    (hle : width ≤ Digits.maxInt64) (count : Nat) {second : Int} (hdvd : width ∣ second)
    {p : Pending} {fields : List Field}
    (h : ∀ bucket, Instant.ofSecond? second = some bucket → p.At times bucket) :
    walk source timeIndex policy width count second p fields =
      steps source timeIndex policy times width count second fields := by
  induction count generalizing second p fields with
  | zero => rfl
  | succ count ih =>
    rw [walk, steps]
    cases hb : Instant.ofSecond? second with
    | none => rfl
    | some bucket =>
      obtain ⟨hat, hlast⟩ := Pending.skipTo_at (h bucket hb)
      obtain ⟨p', hat', heq⟩ := appendBucket_eq source fields timeIndex policy hasc hat
        hlast
      simp only [heq]
      cases appendAt source timeIndex policy times bucket fields with
      | error e => rfl
      | ok fields =>
        simp only [Except.map, checked, if_pos (fits_next hpos hle hdvd hb)]
        refine ih (Int.dvd_add hdvd (Int.dvd_refl width)) fun bucket' hb' =>
          hat' bucket' (Instant.lt_of_second_lt ?_)
        rw [(Instant.ofSecond?_eq_some_iff.mp hb).1, (Instant.ofSecond?_eq_some_iff.mp hb').1]
        omega

end Fill

end SeriesQuery
